import Kernelflut.Foundations.Runs
import Kernelflut.Pixelflut.Size
import Kernelflut.Pixelflut.Streams

/-!
# Size requests and their answers

Here a server is at the other end.  It reads the bytes that arrive on a
connection by the grammar, answers every `SIZE` with a line of its own, in
order, and says nothing to a `PX`.  A `Dialogue` is the client with what it has
written and how much it has read on each connection; `pf_size` reads what the
server sent and nobody has read yet.

`dialogue_paired` says that requests and answers stay paired over every run:
each `pf_size` gets the answer to its own request, whatever connection it used,
and leaves nothing behind for the next one.  `Dialogue.Caught` is the invariant:
all that the server has sent has been read.  The longest answer has 29
characters, so it always fits the buffer, and a printed `int` its field.
-/

namespace Kernelflut.Pixelflut

open FifoDelivery PartialStep Scanning Text

universe u

variable {B : Type u}

/-- `SIZE <w> <h>` -/
def answerLine (size : ℤ × ℤ) : List Char :=
  sizeLine ++ ([' '] ++ (decimal size.1 ++ ([' '] ++ decimal size.2)))

/-- The first `n` answers. -/
def answerLines (answers : ℕ → ℤ × ℤ) (n : ℕ) : List Char :=
  terminated '\n' ((List.range n).map fun k => answerLine (answers k))

/-- What the server sends on a connection, given the bytes it received there. -/
def serverSends (answers : ℕ → ℤ × ℤ) (received : List Char) : List Char :=
  match decode received with
  | none => []
  | some requests => answerLines answers (requests.count .size)

/-- The client in conversation with the server. -/
structure Dialogue (B : Type u) where
  client : Client B
  /-- The writes so far, each with its connection. -/
  writes : List (ℕ × List Char)
  /-- How many bytes have been read on each connection. -/
  read : ℕ → ℕ
  /-- The results of the `pf_size` calls so far. -/
  results : List (ℕ × Option (ℤ × ℤ))

namespace Dialogue

def start (c : Client B) : Dialogue B where
  client := c
  writes := []
  read := fun _ => 0
  results := []

/-- What the server has sent on a connection and nobody has read. -/
def unread (answers : ℕ → ℕ → ℤ × ℤ) (s : Dialogue B) (i : ℕ) : List Char :=
  (serverSends (answers i) (onChannel s.writes i).flatten).drop (s.read i)

/-- One call.  On connection `i` the server's `k`-th answer is `answers i k`. -/
def step (toInt : ℤ → ℤ) (answers : ℕ → ℕ → ℤ × ℤ) (s : Dialogue B) :
    Call B → Dialogue B
  | .size =>
      let i := s.client.activeConn
      let s := { s with writes := s.writes ++ (Call.transmit s.client .size).2 }
      let input := s.unread answers i
      let (reply, left) := sizeExchange toInt input
      let (client, _, ret, stored) := pfSize s.client reply
      { s with
        client
        read := Function.update s.read i (s.read i + (input.length - left.length))
        results := s.results ++ [(ret, stored)] }
  | call =>
      let (client, writes) := call.transmit s.client
      { s with client, writes := s.writes ++ writes }

end Dialogue

/-! ## One answer -/

theorem answerLines_succ (answers : ℕ → ℤ × ℤ) (n : ℕ) :
    answerLines answers (n + 1) =
      answerLines answers n ++ (answerLine (answers n) ++ ['\n']) := by
  rw [answerLines, List.range_succ, List.map_append, terminated_append, List.map_singleton,
    terminated_cons, terminated_nil]
  rfl

theorem length_decimal_le_of_isInt {z : ℤ} (isInt : IsInt z) : (decimal z).length ≤ 11 := by
  obtain ⟨above, below⟩ := isInt
  exact length_decimal_le (by decide) (show z.natAbs < 10 ^ 10 by norm_num; omega)

/-- An answer is read completely and gives its two numbers. -/
theorem sizeExchange_answerLine {toInt : ℤ → ℤ} (exact_on_int : ∀ z, IsInt z → toInt z = z)
    {w h : ℤ} (hw : IsInt w) (hh : IsInt h) :
    sizeExchange toInt (answerLine (w, h) ++ ['\n']) = (.size w h, []) := by
  have blank : ∀ c ∈ [' '], isSpace c = true := List.forall_mem_singleton.mpr rfl
  have wellFormed : WellFormed (answerLine (w, h)) w h :=
    ⟨[' '], decimal w, [' '], decimal h, rfl, ⟨by simp, blank⟩, ⟨numeral_decimal w, hw⟩,
      ⟨by simp, blank⟩, numeral_decimal h, hh⟩
  have width := length_decimal_le_of_isInt hw
  have height := length_decimal_le_of_isInt hh
  have fits : (answerLine (w, h)).length ≤ 31 := by
    simp only [answerLine, List.length_append, List.length_singleton,
      show sizeLine.length = 4 from rfl]
    omega
  have clean : '\n' ∉ answerLine (w, h) := by
    have digits : ∀ z : ℤ, '\n' ∉ decimal z := fun _ => notMem_decimal (by decide) (by decide)
    simp only [answerLine, List.mem_append, not_or]
    exact ⟨by decide, by decide, digits w, by decide, digits h⟩
  have accepted : Accepted (cString (answerLine (w, h))) w h := by
    rw [wellFormed.cString_eq]
    exact accepted_of_fits blank (numeral_decimal w) (width.trans (by decide))
      (by simp) blank (numeral_decimal h) (height.trans (by decide))
  obtain ⟨consumed, size, -⟩ := sizeExchange_line toInt clean fits []
  refine Prod.ext ?_ consumed
  rw [size w h accepted, exact_on_int w hw, exact_on_int h hh]

/-! ## The invariant -/

/-- A run of calls and one call more. -/
theorem transmitAll_concat (c : Client B) (calls : List (Call B)) (call : Call B) :
    transmitAll c (calls ++ [call]) =
      ((call.transmit (transmitAll c calls).1).1,
        (transmitAll c calls).2 ++ (call.transmit (transmitAll c calls).1).2) := by
  induction calls generalizing c with
  | nil => simp [transmitAll]
  | cons first calls ih => simp [transmitAll, ih]

theorem requestsOf_concat (c : Client B) (calls : List (Call B)) (call : Call B) :
    requestsOf c (calls ++ [call]) =
      requestsOf c calls ++ call.requests (transmitAll c calls).1 := by
  induction calls generalizing c with
  | nil => simp [transmitAll, requestsOf]
  | cons first calls ih => simp [transmitAll, requestsOf, ih]

/-- How many size requests have been issued on a connection. -/
def sizeRequests (c : Client B) (calls : List (Call B)) (i : ℕ) : ℕ :=
  (onChannel (requestsOf c calls) i).count .size

/-- The statics and the writes are those of the calls so far, and everything the
server has sent in answer has been read. -/
structure Dialogue.Caught (answers : ℕ → ℕ → ℤ × ℤ) (c : Client B) (calls : List (Call B))
    (s : Dialogue B) : Prop where
  client : s.client = (transmitAll c calls).1
  writes : s.writes = (transmitAll c calls).2
  read : ∀ i, s.read i = (answerLines (answers i) (sizeRequests c calls i)).length

/-- The server answers the requests it finds in the stream. -/
theorem serverSends_transmitAll {c : Client B} (ready : c.Ready) (calls : List (Call B))
    (answers : ℕ → ℤ × ℤ) (i : ℕ) :
    serverSends answers (onChannel (transmitAll c calls).2 i).flatten =
      answerLines answers (sizeRequests c calls i) := by
  rw [serverSends, decode_of_spells (spells_transmitAll ready calls) i]
  rfl

theorem Dialogue.Caught.unread {answers : ℕ → ℕ → ℤ × ℤ} {c : Client B} (ready : c.Ready)
    {calls : List (Call B)} {s : Dialogue B} (caught : s.Caught answers c calls) (i : ℕ) :
    s.unread answers i = [] := by
  rw [Dialogue.unread, caught.writes, serverSends_transmitAll ready, caught.read,
    List.drop_length]

/-- Commands for pixels are not answered. -/
theorem sizeRequests_concat {c : Client B} {calls : List (Call B)} {call : Call B}
    (other : call ≠ .size) (i : ℕ) :
    sizeRequests c (calls ++ [call]) i = sizeRequests c calls i := by
  have noSize : Request.size ∉ onChannel (call.requests (transmitAll c calls).1) i := by
    rw [mem_onChannel]
    cases call with
    | set x y r g b => simp [Call.requests]
    | setBuf mem fb width rect bgcolor =>
        simp only [Call.requests, List.mem_filterMap, not_exists, not_and]
        intro turn _
        split <;> simp
    | size => exact absurd rfl other
  rw [sizeRequests, requestsOf_concat, onChannel_append, List.count_append,
    List.count_eq_zero.mpr noSize]
  rfl

theorem sizeRequests_concat_size (c : Client B) (calls : List (Call B)) (i : ℕ) :
    sizeRequests c (calls ++ [.size]) i =
      sizeRequests c calls i + if (transmitAll c calls).1.activeConn = i then 1 else 0 := by
  rw [sizeRequests, requestsOf_concat, onChannel_append, List.count_append]
  simp only [Call.requests, onChannel_cons, onChannel_nil]
  split <;> rfl

section Steps

variable {toInt : ℤ → ℤ} {answers : ℕ → ℕ → ℤ × ℤ} {c : Client B} {calls : List (Call B)}
  {s : Dialogue B}

/-- **A call that sets pixels** leaves nothing to read. -/
theorem Dialogue.Caught.step_set (caught : s.Caught answers c calls) {call : Call B}
    (other : call ≠ .size) : (s.step toInt answers call).Caught answers c (calls ++ [call]) := by
  have step : s.step toInt answers call =
      { s with
        client := (call.transmit s.client).1
        writes := s.writes ++ (call.transmit s.client).2 } := by
    cases call with
    | size => exact absurd rfl other
    | set | setBuf => rfl
  rw [step]
  refine ⟨?_, ?_, fun i => ?_⟩
  · rw [transmitAll_concat, caught.client]
  · rw [transmitAll_concat, caught.writes, caught.client]
  · rw [sizeRequests_concat other]
    exact caught.read i

/-- What there is to read after a size request is written: its answer. -/
theorem Dialogue.Caught.unread_size (ready : c.Ready) (caught : s.Caught answers c calls) :
    ({ s with writes := s.writes ++ (Call.transmit s.client .size).2 } : Dialogue B).unread
        answers s.client.activeConn =
      answerLine (answers s.client.activeConn (sizeRequests c calls s.client.activeConn)) ++
        ['\n'] := by
  have writes : s.writes ++ (Call.transmit s.client .size).2 =
      (transmitAll c (calls ++ [.size])).2 := by
    rw [transmitAll_concat, caught.writes, caught.client]
  rw [Dialogue.unread, writes, serverSends_transmitAll ready, sizeRequests_concat_size,
    ← caught.client, if_pos rfl, caught.read, answerLines_succ, List.drop_left]

/-- **A size request** gets its answer, and leaves nothing to read. -/
theorem Dialogue.Caught.step_size (exact_on_int : ∀ z, IsInt z → toInt z = z)
    (ints : ∀ i k, IsInt (answers i k).1 ∧ IsInt (answers i k).2) (ready : c.Ready)
    (caught : s.Caught answers c calls) :
    (s.step toInt answers .size).Caught answers c (calls ++ [.size]) ∧
      (s.step toInt answers .size).results = s.results ++
        [(0, some (answers s.client.activeConn
          (sizeRequests c calls s.client.activeConn)))] := by
  obtain ⟨hw, hh⟩ := ints s.client.activeConn (sizeRequests c calls s.client.activeConn)
  have exchange := sizeExchange_answerLine exact_on_int hw hh
  have step : s.step toInt answers .size =
      { client := s.client.nextConn.2
        writes := s.writes ++ (Call.transmit s.client .size).2
        read := Function.update s.read s.client.activeConn
          (s.read s.client.activeConn + (answerLine (answers s.client.activeConn
            (sizeRequests c calls s.client.activeConn)) ++ ['\n']).length)
        results := s.results ++ [(0, some (answers s.client.activeConn
          (sizeRequests c calls s.client.activeConn)))] } := by
    simp only [Dialogue.step, caught.unread_size ready, exchange, pfSize, List.length_nil,
      Nat.sub_zero]
  rw [step]
  refine ⟨⟨?_, ?_, fun i => ?_⟩, rfl⟩
  · rw [transmitAll_concat, caught.client]
    rfl
  · rw [transmitAll_concat, caught.writes, caught.client]
  · show Function.update s.read s.client.activeConn _ i = _
    rw [sizeRequests_concat_size, ← caught.client]
    by_cases here : s.client.activeConn = i
    · subst here
      rw [Function.update_self, if_pos rfl, caught.read, answerLines_succ]
      exact List.length_append.symm
    · rw [Function.update_of_ne (Ne.symm here), if_neg here]
      exact caught.read i

end Steps

/-! ## Runs -/

/-- **Requests and answers stay paired.**  On a pool of any size, started at any of
its connections, in every run of `pf_size`, `pf_set` and `pf_set_buf` calls: each
`pf_size` returns 0 with the answer to the request it sent, and after every call
no connection has anything left to read. -/
theorem dialogue_paired (toInt : ℤ → ℤ) (exact_on_int : ∀ z, IsInt z → toInt z = z)
    (answers : ℕ → ℕ → ℤ × ℤ) (ints : ∀ i k, IsInt (answers i k).1 ∧ IsInt (answers i k).2)
    (c : Client B) (ready : c.Ready) (calls : List (Call B)) :
    EachStep (fun s call => some (Dialogue.step toInt answers s call))
      (fun before s call s' =>
        (call = .size → s'.results = s.results ++ [(0, some (answers s.client.activeConn
          (sizeRequests c before s.client.activeConn)))]) ∧
        ∀ i, s'.unread answers i = [])
      (Dialogue.start c) calls := by
  have start : (Dialogue.start c).Caught answers c [] := ⟨rfl, rfl, fun _ => rfl⟩
  have preserved : ∀ {before : List (Call B)} {s : Dialogue B} (call : Call B),
      s.Caught answers c before →
      (s.step toInt answers call).Caught answers c (before ++ [call]) := by
    intro before s call caught
    by_cases size : call = .size
    · subst size
      exact (caught.step_size exact_on_int ints ready).1
    · exact caught.step_set size
  intro before call after s s' split hrun hstep
  have caught : s.Caught answers c before :=
    inv_of_eachStep (P := fun _ _ _ _ => True)
      (fun before s => s.Caught answers c before) start
      (fun _ caught hstep _ => Option.some.inj hstep ▸ preserved _ caught)
      (fun _ _ _ _ _ _ _ _ => trivial) split hrun
  obtain rfl := Option.some.inj hstep
  refine ⟨?_, (preserved call caught).unread ready⟩
  rintro rfl
  exact (caught.step_size exact_on_int ints ready).2

/-- Three connections, started at the second of them: the pixel travels there, the
request on the third. -/
theorem dialogue_paired_three_connections :
    let answers : ℕ → ℕ → ℤ × ℤ := fun i _ => (if i = 2 then -2147483648 else 7, 0)
    let c : Client Unit :=
      { (Client.connected [3, 4, 5] : Client Unit) with activeConn := 1 }
    let calls : List (Call Unit) := [.set 0 0 0 0 0, .size]
    (calls.foldl (Dialogue.step wrapInt answers) (Dialogue.start c)).results =
      [(0, some (-2147483648, 0))] := by
  intro answers c calls
  have each := dialogue_paired wrapInt (fun _ => wrapInt_of_isInt) answers
    (fun i _ => by simp only [answers]; split <;> decide) c (by decide) calls
  obtain ⟨answered, -⟩ := each [.set 0 0 0 0 0] .size []
    ((Dialogue.start c).step wrapInt answers (.set 0 0 0 0 0)) _ rfl rfl rfl
  simp only [calls, List.foldl_cons, List.foldl_nil]
  exact answered rfl

end Kernelflut.Pixelflut
