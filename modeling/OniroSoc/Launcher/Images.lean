import OniroSoc.Launcher.Sha256

/-!
# The launcher's image verification, step by step

Between any two system calls of `verify_image` the app can act on the directory and on its own
files.  A stamp file holds the fields of a `Stamp` as one line, so comparing lines is comparing
stamps.
-/

namespace OniroSoc.Launcher

abbrev Pin := List Char

def manifestPin (manifest : List (String × Pin)) (name : String) : Option Pin :=
  (manifest.find? fun line => line.1 = name ∧ line.2.length = 64).map (·.2)

structure Time where
  (sec nsec : Int)
deriving DecidableEq

structure Inode where
  (dev ino : Nat)
  regular : Bool
  (uid mode : Nat)
  mtime : Time
  content : List UInt8
  writers : Nat

def unwritable (mode : Nat) : Prop := mode &&& 0o222 = 0

instance (mode : Nat) : Decidable (unwritable mode) := inferInstanceAs (Decidable (_ = _))

structure Stat where
  (dev ino : Nat)
  regular : Bool
  (uid mode size : Nat)
  mtime : Time

def Inode.stat (i : Inode) : Stat :=
  ⟨i.dev, i.ino, i.regular, i.uid, i.mode, i.content.length, i.mtime⟩

structure Stamp where
  (dev ino size : Nat)
  mtime : Time
  pin : Pin
deriving DecidableEq

def Stat.stamp (st : Stat) (pin : Pin) : Stamp := ⟨st.dev, st.ino, st.size, st.mtime, pin⟩

abbrev Stamps := String → Option Stamp

def stampMatches (stamps : Stamps) (name : String) (st : Stat) (pin : Pin) : Prop :=
  stamps name = some (st.stamp pin)

instance (stamps : Stamps) (name : String) (st : Stat) (pin : Pin) :
    Decidable (stampMatches stamps name st pin) := inferInstanceAs (Decidable (_ = _))

inductive StampWrite where
  | written
  | skipped
  | torn

def StampWrite.apply (out : StampWrite) (stamps : Stamps) (name : String) (s : Stamp) : Stamps :=
  match out with
  | .written => Function.update stamps name (some s)
  | .skipped => stamps
  | .torn => Function.update stamps name none

inductive Phase where
  | opened
  | checked (st : Stat)
  | unstamped
  | owned
  | readOnly
  | hashing (off : Nat) (sh : Sha256)
  | matched
  | rechecked (st : Stat)
  | returned
  | closed
  | failed

def Phase.isReturned : Phase → Bool
  | .returned | .closed => true
  | _ => false

def Phase.isOpen : Phase → Bool
  | .closed | .failed => false
  | _ => true

structure Run where
  name : String
  pin : Pin
  fd : Nat
  phase : Phase

/-- The system calls after `open`, with what they leave to the kernel: how many bytes a `read`
returns, and what was in the memory of the hashing state. -/
inductive Call where
  | fstat
  | stampMatches
  | fchown
  | fchmod
  | setlease (memory : Vector UInt8 64)
  | read (n : Nat)
  | refstat
  | stampWrite (out : StampWrite)
  | fail
  | close

def Run.exec (r : Run) (c : Call) (i : Inode) (stamps : Stamps) : Option (Phase × Inode × Stamps) :=
  match r.phase, c with
  | .opened, .fstat =>
    if i.regular then some (.checked i.stat, i, stamps) else some (.failed, i, stamps)
  | .checked st, .stampMatches =>
    if st.uid = 0 ∧ unwritable st.mode ∧ Launcher.stampMatches stamps r.name st r.pin then
      some (.returned, i, stamps)
    else some (.unstamped, i, stamps)
  | .unstamped, .fchown => some (.owned, { i with uid := 0 }, stamps)
  | .owned, .fchmod => some (.readOnly, { i with mode := 0o444 }, stamps)
  | .readOnly, .setlease memory =>
    -- the lease is refused exactly while somebody has the file open for writing
    if i.writers = 0 then some (.hashing 0 (sha256Init memory), i, stamps)
    else some (.failed, i, stamps)
  | .hashing off sh, .read n =>
    if 0 < n ∧ n ≤ 2 ^ 20 then
      let buf := (i.content.drop off).take n
      if buf.length ≠ 0 then some (.hashing (off + buf.length) (sha256Update sh buf), i, stamps)
      else if sha256Hex sh = r.pin then some (.matched, i, stamps)
      else some (.failed, i, stamps)
    else none
  | .matched, .refstat => some (.rechecked i.stat, i, stamps)
  | .rechecked st, .stampWrite out =>
    some (.returned, i, out.apply stamps r.name (st.stamp r.pin))
  | .returned, .close => some (.closed, i, stamps)
  | phase, .fail =>
    -- any call can fail before the descriptor is returned
    if phase.isOpen ∧ ¬ phase.isReturned then some (.failed, i, stamps) else none
  | _, _ => none

structure World where
  inode : Nat → Inode
  count : Nat
  dir : List (String × Nat)
  stamps : Stamps
  runs : List Run

/-- The inode still has a directory entry or an open descriptor, so its number is taken. -/
def World.Live (w : World) (id : Nat) : Prop :=
  (∃ e ∈ w.dir, e.2 = id) ∨ 0 < (w.inode id).writers ∨ ∃ r ∈ w.runs, r.fd = id ∧ r.phase.isOpen

instance (w : World) (id : Nat) : Decidable (w.Live id) := inferInstanceAs (Decidable (_ ∨ _ ∨ _))

inductive Move where
  | create (name : String) (new : Inode)
  | rename (src dst : String)
  | link (src dst : String)
  | unlink (name : String)
  | chmod (id mode : Nat)
  | utimes (id : Nat) (mtime : Time)
  | openWrite (id : Nat)
  | write (id : Nat) (content : List UInt8) (mtime : Time)
  | closeWrite (id : Nat)

def World.modify (w : World) (id : Nat) (i : Inode) : World :=
  { w with inode := Function.update w.inode id i }

def World.entry (w : World) (name : String) : Option Nat :=
  (w.dir.find? (·.1 = name)).map (·.2)

def World.Free (w : World) (new : Inode) : Prop :=
  ∀ id < w.count, w.Live id → ¬ ((w.inode id).dev = new.dev ∧ (w.inode id).ino = new.ino)

instance (w : World) (new : Inode) : Decidable (w.Free new) :=
  inferInstanceAs (Decidable (∀ id < _, _ → _))

def World.move (w : World) : Move → Option World
  | .create name new =>
    if new.uid ≠ 0 ∧ w.Free new then some { w.modify w.count new with
        count := w.count + 1, dir := (name, w.count) :: w.dir.filter (·.1 ≠ name) }
    else none
  | .rename src dst =>
    (w.entry src).map fun id =>
      { w with dir := (dst, id) :: w.dir.filter fun e => e.1 ≠ src ∧ e.1 ≠ dst }
  | .link src dst =>
    (w.entry src).map fun id => { w with dir := (dst, id) :: w.dir.filter (·.1 ≠ dst) }
  | .unlink name => some { w with dir := w.dir.filter (·.1 ≠ name) }
  | .chmod id mode =>
    if id < w.count ∧ (w.inode id).uid ≠ 0 then some (w.modify id { w.inode id with mode := mode })
    else none
  | .utimes id mtime =>
    if id < w.count ∧ (w.inode id).uid ≠
      0 then some (w.modify id { w.inode id with mtime := mtime })
    else none
  | .openWrite id =>
    if w.Live id ∧ ¬ unwritable (w.inode id).mode then
      some (w.modify id { w.inode id with writers := (w.inode id).writers + 1 })
    else none
  | .write id content mtime =>
    if 0 < (w.inode id).writers
      then some (w.modify id { w.inode id with content := content, mtime := mtime })
    else none
  | .closeWrite id =>
    if 0 < (w.inode id).writers
      then some (w.modify id { w.inode id with writers := (w.inode id).writers - 1 })
    else none

inductive Event where
  | move (m : Move)
  | verify (name : String)
  | call (p : Nat) (c : Call)

def World.step (manifest : List (String × Pin)) (w : World) : Event → Option World
  | .move m => w.move m
  | .verify name =>
    match manifestPin manifest name, w.entry name with
    | some pin, some id => some { w with runs := w.runs ++ [⟨name, pin, id, .opened⟩] }
    | _, _ => none
  | .call p c =>
    w.runs[p]?.bind fun r =>
      (r.exec c (w.inode r.fd) w.stamps).map fun (phase, i, stamps) =>
        { w.modify r.fd i with stamps := stamps, runs := w.runs.set p { r with phase := phase } }

end OniroSoc.Launcher
