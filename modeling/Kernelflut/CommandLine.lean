import Kernelflut.Foundations.Getopt
import Kernelflut.Foundations.Strtol
import Kernelflut.Pixelflut.Pixel

/-!
# The command line

`main` reads its options in a loop over `getopt`, checks each value as it comes, and
then takes up to two operands, the host and the port.  A value that fails its check
ends in `usage`.

The checks see a number after its conversion: `-b` after `strtoul` and the narrowing
to 32 bits, `-c` and the port after `atoi`.  So a number that is out of range can
pass as another one, and a text that is no number as whatever the conversion makes
of it.  `taken_as_written_iff` says which texts are taken at their value.
-/

namespace Kernelflut

open Getopt Strtol Pixelflut

def errBadarg : ℕ := 1

def defaultHostname : List Char := ['l', 'o', 'c', 'a', 'l', 'h', 'o', 's', 't']
def defaultPort : ℤ := 1337
def defaultConnections : ℤ := 8

/-- `"ab:c:d:o:sph?"` -/
def optstring : List Char :=
  ['a', 'b', ':', 'c', ':', 'd', ':', 'o', ':', 's', 'p', 'h', '?']

/-- The variables of `main` that the options set.  The ones for `-d` and `-o` ("TODO
implement") are only checked. -/
structure Settings where
  asyncio : Bool
  connections : ℤ
  sndbufShift : ℕ
  ptActive : Bool
  bgcolor : Word
  deriving DecidableEq, Repr

def Settings.start : Settings where
  asyncio := false
  connections := defaultConnections
  sndbufShift := 0
  ptActive := false
  bgcolor := pfNoBgcolor

/-- `main` has printed the usage text, and returns. -/
structure Usage where
  ret : ℕ
  deriving DecidableEq, Repr

/-- The values of `-d WxH` and `-o X,Y`: the first number, "read until we encounter"
the separator, and the second number. -/
def badPair (sep : Char) (optarg : List Char) : Bool :=
  atoi optarg ≤ 0 ||
    match optarg.dropWhile (· ≠ sep) with
    | [] => true
    | _ :: rest => atoi rest ≤ 0

/-- The `switch` of `main`. -/
def Settings.option (s : Settings) : Opt → Except Usage Settings
  | .flag 'a' => .ok { s with asyncio := true }
  | .arg 'b' optarg =>
      let bgcolor := BitVec.ofNat 32 (strtoul16 optarg)
      if 0x00ffffff < bgcolor.toNat then .error ⟨errBadarg⟩ else .ok { s with bgcolor }
  | .arg 'c' optarg =>
      let connections := atoi optarg
      if connections ≤ 0 then .error ⟨errBadarg⟩ else .ok { s with connections }
  | .arg 'd' optarg => if badPair 'x' optarg then .error ⟨errBadarg⟩ else .ok s
  | .arg 'o' optarg => if badPair ',' optarg then .error ⟨errBadarg⟩ else .ok s
  | .flag 's' => .ok { s with sndbufShift := s.sndbufShift + 1 }
  | .flag 'p' => .ok { s with ptActive := true }
  | .flag 'h' | .flag '?' | .bad => .error ⟨0⟩
  | _ => .error ⟨errBadarg⟩

/-- What `main` goes on to `pf_connect` with. -/
structure Invocation where
  settings : Settings
  hostname : List Char
  port : ℤ
  deriving DecidableEq, Repr

/-- `main(argc, argv)` as far as `pf_connect`, `args` being what follows the name of the
program. -/
def mainArgs (permute : Bool) (args : List (List Char)) : Except Usage Invocation :=
  let (opts, operands) := getopt permute optstring args
  match opts.foldlM Settings.option Settings.start with
  | .error usage => .error usage
  | .ok settings =>
      match operands with
      | [] => .ok ⟨settings, defaultHostname, defaultPort⟩
      | [hostname] => .ok ⟨settings, hostname, defaultPort⟩
      | [hostname, port] =>
          let port := atoi port
          if port ≤ 0 then .error ⟨errBadarg⟩ else .ok ⟨settings, hostname, port⟩
      | _ => .error ⟨errBadarg⟩

/-! ## What the options leave -/

/-- The settings after these options. -/
structure Settings.After (opts : List Opt) (s : Settings) : Prop where
  bgcolor : s.bgcolor =
    ((lastArg 'b' opts).map fun optarg => BitVec.ofNat 32 (strtoul16 optarg)).getD pfNoBgcolor
  bgcolor_le : lastArg 'b' opts ≠ none → s.bgcolor.toNat ≤ 0x00ffffff
  connections : s.connections = ((lastArg 'c' opts).map atoi).getD defaultConnections
  connections_pos : 0 < s.connections
  sndbufShift : s.sndbufShift = opts.count (.flag 's')

theorem Settings.after_start : Settings.start.After [] where
  bgcolor := rfl
  bgcolor_le := fun h => absurd rfl h
  connections := rfl
  connections_pos := by decide
  sndbufShift := rfl

/-- What an option that passes its check does to the settings. -/
structure Settings.Sets (s s' : Settings) (opt : Opt) : Prop where
  bgcolor : s'.bgcolor =
    ((opt.argOf 'b').map fun optarg => BitVec.ofNat 32 (strtoul16 optarg)).getD s.bgcolor
  bgcolor_le : opt.argOf 'b' ≠ none → s'.bgcolor.toNat ≤ 0x00ffffff
  connections : s'.connections = ((opt.argOf 'c').map atoi).getD s.connections
  connections_pos : 0 < s.connections → 0 < s'.connections
  sndbufShift : s'.sndbufShift = s.sndbufShift + [opt].count (.flag 's')

section Options

variable {opts : List Opt} {s s' : Settings} {opt : Opt}

theorem Settings.sets_of_option (h : s.option opt = .ok s') : s.Sets s' opt := by
  have noArg : ∀ {P : Prop}, (none : Option (List Char)) ≠ none → P := absurd rfl
  unfold Settings.option at h
  split at h
  case h_1 | h_6 | h_7 =>
    cases h
    exact ⟨rfl, noArg, rfl, id, rfl⟩
  case h_2 =>
    simp only at h
    split at h
    · cases h
    · next small =>
        cases h
        exact ⟨rfl, fun _ => Nat.le_of_not_lt small, rfl, id, rfl⟩
  case h_3 =>
    simp only at h
    split at h
    · cases h
    · next positive =>
        cases h
        exact ⟨rfl, noArg, rfl, fun _ => Int.not_le.mp positive, rfl⟩
  case h_4 | h_5 =>
    -- `-d` and `-o` only check their values.
    split at h
    · cases h
    · cases h
      exact ⟨rfl, noArg, rfl, id, rfl⟩
  all_goals cases h

/-- **One option.** -/
theorem Settings.After.option (after : s.After opts) (h : s.option opt = .ok s') :
    s'.After (opts ++ [opt]) where
  bgcolor := by
    rw [(sets_of_option h).bgcolor, after.bgcolor, lastArg_concat]
    cases opt.argOf 'b' <;> rfl
  bgcolor_le := by
    rw [lastArg_concat]
    cases given : opt.argOf 'b' with
    | none =>
        have kept : s'.bgcolor = s.bgcolor := by rw [(sets_of_option h).bgcolor, given]; rfl
        rw [kept]
        exact after.bgcolor_le
    | some optarg =>
        exact fun _ => (sets_of_option h).bgcolor_le (given ▸ Option.some_ne_none optarg)
  connections := by
    rw [(sets_of_option h).connections, after.connections, lastArg_concat]
    cases opt.argOf 'c' <;> rfl
  connections_pos := (sets_of_option h).connections_pos after.connections_pos
  sndbufShift := by
    rw [(sets_of_option h).sndbufShift, after.sndbufShift, List.count_append]

/-- **All options.** -/
theorem Settings.After.foldlM {more : List Opt} (after : s.After opts)
    (h : more.foldlM Settings.option s = .ok s') : s'.After (opts ++ more) := by
  induction more generalizing opts s with
  | nil =>
      cases h
      rwa [List.append_nil]
  | cons opt more ih =>
      rw [List.foldlM_cons] at h
      cases first : s.option opt with
      | error usage =>
          rw [first] at h
          cases h
      | ok s₁ =>
          rw [first] at h
          have rest := ih (after.option first) h
          rwa [List.append_assoc] at rest

end Options

/-- **What `main` connects with**: the settings of its options, and the operands. -/
theorem mainArgs_eq_ok {permute : Bool} {args : List (List Char)} {inv : Invocation}
    (h : mainArgs permute args = .ok inv) :
    inv.settings.After (getopt permute optstring args).1 ∧
      inv.port = ((getopt permute optstring args).2[1]?.map atoi).getD defaultPort ∧
      0 < inv.port := by
  unfold mainArgs at h
  simp only at h
  split at h
  · cases h
  · next settings parsed =>
      have after : settings.After (getopt permute optstring args).1 :=
        Settings.after_start.foldlM parsed
      split at h
      · next none =>
          cases h
          rw [none]
          exact ⟨after, rfl, show (0 : ℤ) < 1337 by decide⟩
      · next one =>
          cases h
          rw [one]
          exact ⟨after, rfl, show (0 : ℤ) < 1337 by decide⟩
      · next two =>
          split at h
          · cases h
          · next positive =>
              cases h
              rw [two]
              exact ⟨after, rfl, Int.not_le.mp positive⟩
      · cases h

/-! ## The numbers written -/

/-- The three numbers are the ones written on the command line, or the defaults. -/
structure AsWritten (opts : List Opt) (operands : List (List Char)) (inv : Invocation) :
    Prop where
  bgcolor :
    match lastArg 'b' opts with
    | none => inv.settings.bgcolor = pfNoBgcolor
    | some optarg =>
        ∃ z, HexText optarg z ∧ z ≤ 0xffffff ∧ (inv.settings.bgcolor.toNat : ℤ) = z
  connections :
    match lastArg 'c' opts with
    | none => inv.settings.connections = defaultConnections
    | some optarg => ∃ z, DecimalText optarg z ∧ 0 < z ∧ inv.settings.connections = z
  port :
    match operands[1]? with
    | none => inv.port = defaultPort
    | some text => ∃ z, DecimalText text z ∧ (1 ≤ z ∧ z ≤ 65535) ∧ inv.port = z

/-- **The condition**: the texts of the three numbers are numerals to their ends, and
the numbers fit the types they are converted to, the port also its range. -/
structure PlainNumbers (opts : List Opt) (operands : List (List Char)) : Prop where
  bgcolor : ∀ optarg, lastArg 'b' opts = some optarg →
    ∃ z, HexText optarg z ∧ 0 ≤ z ∧ z ≤ 4294967295
  connections : ∀ optarg, lastArg 'c' opts = some optarg →
    ∃ z, DecimalText optarg z ∧ -2147483648 ≤ z ∧ z ≤ 2147483647
  port : ∀ text, operands[1]? = some text →
    ∃ z, DecimalText text z ∧ -2147483648 ≤ z ∧ z ≤ 65535

theorem AsWritten.plainNumbers {opts : List Opt} {operands : List (List Char)}
    {inv : Invocation} (asWritten : AsWritten opts operands inv)
    (after : inv.settings.After opts) : PlainNumbers opts operands where
  bgcolor := by
    intro optarg given
    have written := asWritten.bgcolor
    rw [given] at written
    obtain ⟨z, text, le, same⟩ := written
    exact ⟨z, text, same ▸ Int.natCast_nonneg _, by omega⟩
  connections := by
    intro optarg given
    have written := asWritten.connections
    have converted := after.connections
    rw [given] at written converted
    obtain ⟨z, text, pos, same⟩ := written
    have range := atoi_range optarg
    have value : atoi optarg = z := converted.symm.trans same
    exact ⟨z, text, by omega, by omega⟩
  port := by
    intro text given
    have written := asWritten.port
    rw [given] at written
    obtain ⟨z, text, range, -⟩ := written
    exact ⟨z, text, by omega, range.2⟩

theorem PlainNumbers.asWritten {opts : List Opt} {operands : List (List Char)}
    {inv : Invocation} (plain : PlainNumbers opts operands)
    (after : inv.settings.After opts)
    (port : inv.port = (operands[1]?.map atoi).getD defaultPort) (port_pos : 0 < inv.port) :
    AsWritten opts operands inv where
  bgcolor := by
    have converted := after.bgcolor
    have le := after.bgcolor_le
    cases given : lastArg 'b' opts with
    | none =>
        rw [given] at converted
        exact converted
    | some optarg =>
        rw [given] at converted le
        obtain ⟨z, text, nonneg, below⟩ := plain.bgcolor optarg given
        have value := strtoul16_hexText text nonneg (by omega)
        have narrow : inv.settings.bgcolor.toNat = strtoul16 optarg := by
          rw [converted, Option.map_some, Option.getD_some, BitVec.toNat_ofNat]
          exact Nat.mod_eq_of_lt (by omega)
        have small := le (Option.some_ne_none optarg)
        exact ⟨z, text, by omega, by rw [narrow, value]⟩
  connections := by
    have converted := after.connections
    cases given : lastArg 'c' opts with
    | none =>
        rw [given] at converted
        exact converted
    | some optarg =>
        rw [given, Option.map_some, Option.getD_some] at converted
        obtain ⟨z, text, lower, upper⟩ := plain.connections optarg given
        have value := atoi_decimalText text lower upper
        have pos := after.connections_pos
        exact ⟨z, text, by omega, converted.trans value⟩
  port := by
    cases given : operands[1]? with
    | none =>
        rw [given] at port
        exact port
    | some text =>
        rw [given, Option.map_some, Option.getD_some] at port
        obtain ⟨z, text, lower, upper⟩ := plain.port text given
        have value := atoi_decimalText text lower (by omega)
        exact ⟨z, text, by omega, port.trans value⟩

/-- **When the command line is taken as it is written.**  Every vector of arguments
ends in `usage` or goes on to `pf_connect`; then the numbers are the ones written
exactly when they are plain. -/
theorem taken_as_written_iff (permute : Bool) (args : List (List Char)) :
    (∃ usage, mainArgs permute args = .error usage) ∨
      ∃ inv, mainArgs permute args = .ok inv ∧
        (AsWritten (getopt permute optstring args).1 (getopt permute optstring args).2 inv ↔
          PlainNumbers (getopt permute optstring args).1
            (getopt permute optstring args).2) := by
  cases outcome : mainArgs permute args with
  | error usage => exact Or.inl ⟨usage, rfl⟩
  | ok inv =>
      obtain ⟨after, port, port_pos⟩ := mainArgs_eq_ok outcome
      refine Or.inr ⟨inv, rfl, ?_, ?_⟩
      · exact fun asWritten => asWritten.plainNumbers after
      · exact fun plain => plain.asWritten after port port_pos

/-- `-b 00ff00 -s -c4 host 1337`: a green background and four connections. -/
theorem taken_as_written_green :
    ∃ inv, mainArgs true [['-', 'b'], ['0', '0', 'f', 'f', '0', '0'], ['-', 's'],
        ['-', 'c', '4'], ['h', 'o', 's', 't'], ['1', '3', '3', '7']] = .ok inv ∧
      AsWritten [.arg 'b' ['0', '0', 'f', 'f', '0', '0'], .flag 's', .arg 'c' ['4']]
        [['h', 'o', 's', 't'], ['1', '3', '3', '7']] inv := by
  rcases taken_as_written_iff true [['-', 'b'], ['0', '0', 'f', 'f', '0', '0'], ['-', 's'],
      ['-', 'c', '4'], ['h', 'o', 's', 't'], ['1', '3', '3', '7']] with
    ⟨usage, stops⟩ | ⟨inv, connects, written⟩
  · cases stops
  · refine ⟨inv, connects, written.mpr ⟨?_, ?_, ?_⟩⟩
    · rintro _ ⟨⟩
      exact ⟨0xff00, ⟨[], [], false, _, _, rfl, by simp, .none, .plain (by simp) rfl, rfl⟩,
        by decide, by decide⟩
    · rintro _ ⟨⟩
      exact ⟨4, ⟨[], _, rfl, by simp, .plain (by simp) (by simp)⟩, by decide, by decide⟩
    · rintro _ ⟨⟩
      exact ⟨1337, ⟨[], _, rfl, by simp, .plain (by simp) (by simp)⟩, by decide, by decide⟩

/-- `main` goes on to `pf_connect`, with a number that is not the one written. -/
def Misread (args : List (List Char)) : Prop :=
  ∃ inv, mainArgs true args = .ok inv ∧
    ¬ AsWritten (getopt true optstring args).1 (getopt true optstring args).2 inv

/-- `-b 100000000` is one more than fits 32 bits and becomes black, like `-b red`;
`-c 4294967297` is one connection, `-c 8;` eight; and 65536 is taken for a port. -/
theorem numbers_misread :
    Misread [['-', 'b'], ['1', '0', '0', '0', '0', '0', '0', '0', '0']] ∧
      Misread [['-', 'b'], ['r', 'e', 'd']] ∧
      Misread [['-', 'c'], ['4', '2', '9', '4', '9', '6', '7', '2', '9', '7']] ∧
      Misread [['-', 'c'], ['8', ';']] ∧
      Misread [['h'], ['6', '5', '5', '3', '6']] := by
  refine ⟨⟨_, rfl, fun asWritten => ?_⟩, ⟨_, rfl, fun asWritten => ?_⟩,
    ⟨_, rfl, fun asWritten => ?_⟩, ⟨_, rfl, fun asWritten => ?_⟩, ⟨_, rfl, fun asWritten => ?_⟩⟩
  · obtain ⟨z, text, le, -⟩ := asWritten.bgcolor
    obtain ⟨negative, n, scanned, value⟩ := scanHex_hexText text
    cases scanned
    rw [value] at le
    exact absurd le (by decide)
  · obtain ⟨z, text, -⟩ := asWritten.bgcolor
    have foreign : 'r' ∉ ['r', 'e', 'd'] :=
      text.notMem rfl ⟨by decide, by decide⟩ ⟨by decide, by decide⟩ rfl
    exact foreign List.mem_cons_self
  · obtain ⟨z, text, -, same⟩ := asWritten.connections
    have scanned := scanInt_decimalText text
    cases scanned
    exact absurd same (by decide)
  · obtain ⟨z, text, -⟩ := asWritten.connections
    have foreign : ';' ∉ ['8', ';'] := text.notMem rfl ⟨by decide, by decide⟩ rfl
    exact foreign (List.mem_cons_of_mem _ List.mem_cons_self)
  · obtain ⟨z, text, range, -⟩ := asWritten.port
    have scanned := scanInt_decimalText text
    cases scanned
    exact absurd range (by decide)

end Kernelflut
