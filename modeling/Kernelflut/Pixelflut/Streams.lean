import Kernelflut.Foundations.FifoDelivery
import Kernelflut.Pixelflut.Contract
import Kernelflut.Pixelflut.Pool
import Kernelflut.Pixelflut.Protocol

/-!
# The byte streams of the connections

`pf_set`, `pf_set_buf` and `pf_size` write whole lines, each on the connection
whose turn it is, so the bytes on one connection are what all of them wrote
there, one after the other.  `Call.transmit` is what a call writes;
`Call.requests` says, without mentioning any bytes, what it asks of the server.

`decode_streams` is the round trip: on every connection, splitting the stream at
newlines and parsing the lines gives the requests issued there, in order.  One
line is related to one request by `Spells`; the two lists of a call are related
element by element, and so are the lists of a run.

All writes are complete here.
-/

namespace Kernelflut.Pixelflut

open FifoDelivery Text

universe u

variable {B : Type u}

/-- A call that sends something. -/
inductive Call (B : Type u) where
  | set (x y : ℤ) (r g b : BitVec 8)
  | setBuf (mem : B → ℤ → Word) (fb : B) (width : ℤ) (rect : EvdiRect) (bgcolor : Word)
  | size

/-- The bytes a call writes, each write with its connection, and the statics
afterwards. -/
def Call.transmit (c : Client B) : Call B → Client B × List (ℕ × List Char)
  | .set x y r g b =>
      let (c, access, px, _) := pfSet c x y r g b true
      (c, [(access.index, px.line ++ ['\n'])])
  | .setBuf mem fb width rect bgcolor =>
      let blit := pfSetBuf mem c fb width rect bgcolor
      (blit.client, (sends blit.turns).map fun (i, px) => (i, px.line ++ ['\n']))
  | .size =>
      -- The request is written before anything is read, and the answer does not
      -- influence the statics (`pfSize_nextConn`).
      let (access, c) := c.nextConn
      (c, [(access.index, sizeLine ++ ['\n'])])

/-- The same for one call after the other. -/
def transmitAll : Client B → List (Call B) → Client B × List (ℕ × List Char)
  | c, [] => (c, [])
  | c, call :: calls =>
      let (c, writes) := call.transmit c
      let (c, more) := transmitAll c calls
      (c, writes ++ more)

/-- The requests a call issues, each with its connection: the pixel it was
given, the size, or every pixel of the rectangle that is not skipped, in
visiting order and with the low 24 bits of its word. -/
def Call.requests (c : Client B) : Call B → List (ℕ × Request)
  | .set x y r g b => [(c.activeConn, .px x y (r ++ g ++ b))]
  | .setBuf mem fb width rect bgcolor =>
      (pfVisits width rect).zipIdx.filterMap fun (v, k) =>
        if redundant mem c.lastBuf bgcolor v.i (mem fb v.i)
            ((c.skipReblit + k + 1) % reblitFrequency) then none
        else some ((c.activeConn + k) % c.numConns, .px v.x v.y (colourOf (mem fb v.i)))
  | .size => [(c.activeConn, .size)]

/-- The requests of a run. -/
def requestsOf : Client B → List (Call B) → List (ℕ × Request)
  | _, [] => []
  | c, call :: calls => call.requests c ++ requestsOf (call.transmit c).1 calls

/-! ## Lines and requests -/

/-- The bytes written are a line, and the line is the request. -/
def Spells (write : ℕ × List Char) (request : ℕ × Request) : Prop :=
  write.1 = request.1 ∧
    ∃ line, write.2 = line ++ ['\n'] ∧ '\n' ∉ line ∧ parseRequest line = some request.2

theorem spells_px (i : ℕ) (px : Px) :
    Spells (i, px.line ++ ['\n']) (i, .px px.x px.y px.colour) :=
  ⟨rfl, px.line, rfl, newline_notMem_pxLine px, parseRequest_pxLine px⟩

theorem spells_size (i : ℕ) : Spells (i, sizeLine ++ ['\n']) (i, .size) :=
  ⟨rfl, sizeLine, rfl, by decide, parseRequest_sizeLine⟩

/-- On each connection the writes are the lines of that connection's requests. -/
theorem exists_lines {writes : List (ℕ × List Char)} {requests : List (ℕ × Request)}
    (spells : List.Forall₂ Spells writes requests) (i : ℕ) :
    ∃ lines, (onChannel writes i).flatten = terminated '\n' lines ∧
      (∀ line ∈ lines, '\n' ∉ line) ∧
      lines.map parseRequest = (onChannel requests i).map some := by
  induction spells with
  | nil => exact ⟨[], rfl, by simp, rfl⟩
  | @cons write request writes requests first _ ih =>
      obtain ⟨lines, stream, clean, parsed⟩ := ih
      obtain ⟨sameConn, line, bytes, noNewline, parses⟩ := first
      rw [onChannel_cons, onChannel_cons, sameConn]
      split
      · refine ⟨line :: lines, ?_, ?_, ?_⟩
        · rw [List.flatten_cons, bytes, stream, terminated_cons, List.append_assoc]
          rfl
        · rintro l (_ | ⟨_, hl⟩)
          · exact noNewline
          · exact clean l hl
        · rw [List.map_cons, List.map_cons, parses, parsed]
      · exact ⟨lines, stream, clean, parsed⟩

/-- So each stream decodes. -/
theorem decode_of_spells {writes : List (ℕ × List Char)} {requests : List (ℕ × Request)}
    (spells : List.Forall₂ Spells writes requests) (i : ℕ) :
    decode (onChannel writes i).flatten = some (onChannel requests i) := by
  obtain ⟨lines, stream, clean, parsed⟩ := exists_lines spells i
  rw [stream, decode_terminated clean parsed]

/-! ## Calls and runs -/

/-- The commands of the loops, read off the turns. -/
theorem forall₂_spells_turns (mem : B → ℤ → Word) (fb : B) (bgcolor : Word) (c : Client B)
    (vs : List Visit) (k : ℕ) :
    List.Forall₂ Spells
      ((sends ((vs.zipIdx k).map fun (v, k) => turnAt mem fb bgcolor c k v)).map
        fun (i, px) => (i, px.line ++ ['\n']))
      ((vs.zipIdx k).filterMap fun (v, k) =>
        if redundant mem c.lastBuf bgcolor v.i (mem fb v.i)
            ((c.skipReblit + k + 1) % reblitFrequency) then none
        else some ((c.activeConn + k) % c.numConns,
          Request.px v.x v.y (colourOf (mem fb v.i)))) := by
  induction vs generalizing k with
  | nil => exact .nil
  | cons v vs ih =>
      rw [List.zipIdx_cons, List.map_cons, List.filterMap_cons, sends, List.filterMap_cons]
      by_cases skipped : redundant mem c.lastBuf bgcolor v.i (mem fb v.i)
          ((c.skipReblit + k + 1) % reblitFrequency) = true
      · simp only [turnAt, if_pos skipped, Option.map_none]
        exact ih (k + 1)
      · simp only [turnAt, if_neg skipped, Option.map_some, List.map_cons]
        refine .cons ?_ (ih (k + 1))
        have command := spells_px ((c.activeConn + k) % c.numConns)
          (Px.ofWord v.x v.y (mem fb v.i))
        rw [Px.colour_ofWord] at command
        exact command

/-- **One call** writes the lines of the requests it issues. -/
theorem Call.spells {c : Client B} (ready : c.Ready) (call : Call B) :
    List.Forall₂ Spells (call.transmit c).2 (call.requests c) := by
  cases call with
  | set x y r g b => exact .cons (spells_px c.activeConn ⟨x, y, r, g, b⟩) .nil
  | setBuf mem fb width rect bgcolor =>
      have turns : (pfSetBuf mem c fb width rect bgcolor).turns =
          (pfVisits width rect).zipIdx.map fun (v, k) => turnAt mem fb bgcolor c k v := by
        rw [pfSetBuf_turns, blitPixels_turns ready, List.mapIdx_eq_zipIdx_map]
      simp only [Call.transmit, Call.requests, turns]
      exact forall₂_spells_turns mem fb bgcolor c _ 0
  | size => exact .cons (spells_size c.activeConn) .nil

/-- A call leaves the pool usable, of the same size. -/
theorem Call.ready_transmit {c : Client B} (ready : c.Ready) (call : Call B) :
    (call.transmit c).1.Ready := by
  cases call with
  | set x y r g b => exact ready.nextConn
  | setBuf mem fb width rect bgcolor => exact pfSetBuf_ready mem fb width rect bgcolor ready
  | size => exact ready.nextConn

/-- **A run** writes the lines of the requests it issues. -/
theorem spells_transmitAll {c : Client B} (ready : c.Ready) (calls : List (Call B)) :
    List.Forall₂ Spells (transmitAll c calls).2 (requestsOf c calls) := by
  induction calls generalizing c with
  | nil => exact .nil
  | cons call calls ih =>
      exact List.rel_append (call.spells ready) (ih (call.ready_transmit ready))

/-- **The streams are uniquely decodable.**  Whatever calls are made on a pool,
of any size: what was written on a connection, split at newlines and parsed line
by line, is the sequence of requests issued there. -/
theorem decode_streams (c : Client B) (ready : c.Ready) (calls : List (Call B)) (i : ℕ) :
    decode (onChannel (transmitAll c calls).2 i).flatten =
      some (onChannel (requestsOf c calls) i) :=
  decode_of_spells (spells_transmitAll ready calls) i

/-- Two connections, the limits of `int`, a blit of two pixels and a request for
the size: what the second connection carries. -/
theorem decode_streams_two_connections :
    let mem : Unit → ℤ → Word := fun _ i => if i = 0 then 0xff123456 else 0xabcdef
    let c : Client Unit := Client.connected [3, 4]
    let calls : List (Call Unit) :=
      [.set (-2147483648) 2147483647 0 1 255, .setBuf mem () 2 ⟨0, 0, 2, 1⟩ pfNoBgcolor, .size]
    decode (onChannel (transmitAll c calls).2 1).flatten =
      some [.px 0 0 0x123456, .size] := by
  intro mem c calls
  rw [decode_streams c (by decide) calls 1]
  decide

end Kernelflut.Pixelflut
