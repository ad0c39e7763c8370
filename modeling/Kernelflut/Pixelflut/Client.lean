import Kernelflut.Pixelflut.Visits

/-!
# The state of the pixelflut client

`pixelflut.c` keeps everything in file-scope and function-local statics: the
connection pool with its round-robin index, the buffer `pf_set_buf` blitted
last and its repaint counter, and the counter of the performance test.
`Client` is all of them.  A framebuffer pointer is an element of a type `B`;
what a pointer points at is a function `mem : B → ℤ → Word` handed to
`pf_set_buf`, since the buffers are written behind its back by evdi.

`nextConn` is the pair of lines `pf_size`, `pf_set` and `pf_set_buf` share
("get next connection from pool").  It records the read of the table as an
`Access`, so that whether the read was in range is a statement about the run.
-/

namespace Kernelflut.Pixelflut

universe u

/-- The statics of `pixelflut.c`, and `pt_active`, which it reads. -/
structure Client (B : Type u) where
  /-- `conns`: `NULL`, or the table of descriptors. -/
  conns : Option (List ℕ)
  activeConn : ℕ
  numConns : ℕ
  /-- `last_buf`; `none` is `NULL`. -/
  lastBuf : Option B
  skipReblit : ℕ
  ptActive : Bool
  ptTrial : ℕ
  deriving DecidableEq, Repr

/-- One read `conns[active_conn_i]` followed by `% num_conns`: the index, the
number of connections at that moment, and the descriptor read (`none` outside
the table). -/
structure Access where
  index : ℕ
  size : ℕ
  fd : Option ℕ
  deriving DecidableEq, Repr

/-- The read is inside the pool, which in particular is not empty. -/
def Access.InRange (access : Access) : Prop := access.index < access.size

instance (access : Access) : Decidable access.InRange :=
  inferInstanceAs (Decidable (access.index < access.size))

/-! ## Return codes of `error.h` -/

def errPfGethost : ℕ := 21
def errPfConnect : ℕ := 22
def errPfSend : ℕ := 24
def errPfRecv : ℕ := 25
def exceptionPtFinished : ℕ := 30
def exceptionInt : ℕ := 31

namespace Client

variable {B : Type u}

/-- The statics when the program starts. -/
def start : Client B where
  conns := none
  activeConn := 0
  numConns := 0
  lastBuf := none
  skipReblit := 0
  ptActive := false
  ptTrial := 0

/-- A client that has just connected `n` sockets for the first time. -/
def connected (fds : List ℕ) : Client B :=
  { start with conns := some fds, numConns := fds.length }

/-- "get next connection from pool". -/
def nextConn (c : Client B) : Access × Client B :=
  ({ index := c.activeConn, size := c.numConns,
     fd := c.conns.bind (·[c.activeConn]?) },
   { c with activeConn := (c.activeConn + 1) % c.numConns })

/-- The pool can be used: there are connections and the round-robin index is
one of them. -/
def Ready (c : Client B) : Prop := c.activeConn < c.numConns

instance (c : Client B) : Decidable c.Ready :=
  inferInstanceAs (Decidable (c.activeConn < c.numConns))

theorem Ready.numConns_pos {c : Client B} (h : c.Ready) : 0 < c.numConns :=
  Nat.zero_lt_of_lt h

/-- Taking a connection leaves the pool usable. -/
theorem Ready.nextConn {c : Client B} (h : c.Ready) : c.nextConn.2.Ready :=
  Nat.mod_lt _ h.numConns_pos

end Client

/-- `pf_set`: the access, the command, and the return code, which reports
whether `dprintf` wrote the line. -/
def pfSet {B : Type u} (c : Client B) (x y : ℤ) (r g b : BitVec 8)
    (written : Bool) : Client B × Access × Px × ℕ :=
  let (access, c) := c.nextConn
  (c, access, ⟨x, y, r, g, b⟩, if written then 0 else errPfSend)

end Kernelflut.Pixelflut
