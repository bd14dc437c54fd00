/-
The line in memory, and what sits at its other end. The bytes that a client writes are cut into
frames; the server answers each whole one, and its answers wait until the client reads them.
-/
import EncryptedBackup.Wire.Response

namespace EncryptedBackup

/-- What sits at the other end: it takes a client on, and answers frames with bytes. -/
class Server (σ : Type) where
  /-- A client has connected. -/
  accept : σ → σ
  /-- Answer a frame; no bytes if there is nothing to say. -/
  answer : σ → Frame → Bytes × σ

/-- How a line treats its client. -/
structure Conditions where
  /-- How many bytes one write takes at most. -/
  writeCap : Option Nat := none
  /-- After how many frames writes fail. -/
  breaksAfter : Option Nat := none
  /-- Does reading behind the end find the line reset? -/
  resetAtEnd : Bool := false
  /-- Does closing fail? -/
  closeFails : Bool := false
  deriving DecidableEq

/-- The line to a server: whether it is open, what waits for the client, the start of a frame, and
the whole frames that the server has taken, newest first; `count` is how many of these came since
the line was opened. -/
structure Line (σ : Type) where
  server : σ
  isOpen : Bool := false
  conditions : Conditions := {}
  arriving : Bytes := []
  unfinished : Bytes := []
  count : Nat := 0
  taken : List Frame := []

namespace Line

variable {σ : Type}

/-! ## Reading -/

/-- Read so many bytes. If fewer wait, all of them are lost. -/
def read (l : Line σ) (n : Nat) : Except Fault Bytes × Line σ :=
  if !l.isOpen then (.error .notConnected, l)
  else if n ≤ l.arriving.length then
    (.ok (l.arriving.take n), { l with arriving := l.arriving.drop n })
  else
    (.error (if l.conditions.resetAtEnd then .reset else .earlyEnd), { l with arriving := [] })

/-! ## Opening and closing -/

/-- Close the line. -/
def close (l : Line σ) : Except Fault Unit × Line σ :=
  if l.isOpen ∧ ¬ l.conditions.closeFails then (.ok (), { l with isOpen := false })
  else (.error .notConnected, { l with isOpen := false })

variable [Server σ]

/-- Open the line anew. -/
def connect (l : Line σ) (conditions : Conditions) : Line σ :=
  { server := Server.accept l.server, isOpen := true, conditions, taken := l.taken }

/-! ## Writing -/

/-- The server takes frames and answers them. -/
def deliver (l : Line σ) : List Frame → Line σ
  | [] => l
  | f :: fs =>
    let (reply, server) := Server.answer l.server f
    deliver { l with server, arriving := l.arriving ++ reply, count := l.count + 1
                     taken := f :: l.taken } fs

/-- Bytes reach the server. -/
def absorb (l : Line σ) (bs : Bytes) : Line σ :=
  let (frames, unfinished) := Frame.cut (l.unfinished ++ bs)
  deliver { l with unfinished } frames

omit [Server σ] in
/-- Have so many frames been taken that writes fail? -/
def isBroken (l : Line σ) : Bool :=
  match l.conditions.breaksAfter with
  | none => false
  | some n => n ≤ l.count

/-- Write pieces one after the other. -/
def writePieces (l : Line σ) : List Bytes → Except Fault Unit × Line σ
  | [] => (.ok (), l)
  | bs :: rest => if l.isBroken then (.error .brokenPipe, l) else (l.absorb bs).writePieces rest

omit [Server σ] in
/-- What one write after the other takes. -/
def portions (l : Line σ) (bs : Bytes) : List Bytes :=
  match l.conditions.writeCap with
  | some cap => pieces cap bs
  | none => if bs = [] then [] else [bs]

/-- Write bytes. -/
def write (l : Line σ) (bs : Bytes) : Except Fault Unit × Line σ :=
  if l.isOpen then l.writePieces (l.portions bs) else (.error .notConnected, l)

end Line

end EncryptedBackup
