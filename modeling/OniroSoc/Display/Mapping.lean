import Mathlib.Data.List.ReduceOption
import OniroSoc.Support.Runs
import OniroSoc.Support.Handles
import OniroSoc.Support.Bytes
import OniroSoc.Display.Alloc

/-!
# Mapping a graphics buffer and giving it back

`HybrisBufferVdiImpl` maps a buffer in one of three ways: it locks the gralloc handle in the
trailing slots of the `BufferHandle`, or imports the buffer and locks the import, or maps a file
descriptor. Which way it was is not written down: the other calls go by the stored handle, its
owner, and `virAddr`.

Beside the handle stands what the calls have brought about: the resources that are open, the locks
and mappings in force, those that `Mmap` returned since the last `Unmap`, and what each `Unmap`
found and undid.  The slots are kept as what they mean; `slotsOf_store` says that they are the words
that `StoreNativeHandle` writes.
-/

namespace OniroSoc.Display
open List Option
open Support Support.Handles

inductive Resource where
  | allocation | importRef | fd
deriving DecidableEq

/-- A gralloc handle, by the process that it is valid in. -/
structure Pointer where
  pid : Int
  native : Handle Resource
deriving DecidableEq

/-- The `HANDLE_OWNER_` values. -/
inductive Owner where
  | none | allocated | imported
  | other (value : Int)
deriving DecidableEq

/-- The trailing slots of a `BufferHandle`. -/
structure Slots where
  ptr : Option Pointer
  pid : Int
  owner : Owner
deriving DecidableEq

structure BufferHandle where
  fd : Option (Handle Resource)
  reserveFds : List (Option (Handle Resource)) := []
  size : Int
  virAddr : Option Nat := none
  slots : Slots

/-- The descriptors that a handle carries. -/
def BufferHandle.fds (handle : BufferHandle) : List (Handle Resource) :=
  (handle.fd :: handle.reserveFds).reduceOption

/-- What makes a buffer readable for the CPU. -/
inductive Mechanism where
  | lock (ptr : Pointer)
  | map (addr : Nat)
deriving DecidableEq

/-- The process that makes the calls; `allocation` is what its `AllocMem` got for the buffer, with
the descriptors that go with it. -/
structure Process where
  pid : Int
  positive : 0 < pid
  gralloc : Bool
  allocation : Option (Handle Resource × List (Handle Resource)) := none

/-- The descriptors that go with an allocation. -/
def Process.fdsOf (process : Process) (native : Handle Resource) : List (Handle Resource) :=
  match process.allocation with
  | some (own, fds) => if own = native then fds else []
  | none => []

structure Buffer where
  handle : BufferHandle
  table : Handles Resource
  /-- The stored pointers that were given to gralloc. -/
  derefs : List Pointer := []
  /-- The locks and mappings in force. -/
  held : List Mechanism := []
  /-- Those that `Mmap` returned since the last `Unmap`. -/
  pending : List Mechanism := []
  /-- For each `Unmap`, what was pending and what it undid. -/
  undone : List (List Mechanism × Option Mechanism) := []
  freed : Bool := false

/-- What the calls of one `Mmap` return. -/
structure Answers where
  lock : Option Nat := none
  reconstruct : Bool := true
  importBuffer : Bool := false
  lockImported : Option Nat := none
  covers : Handle Resource → Bool := fun _ => true
  mmap : Option Nat := none
  refused : Bool := false
  mmapReadOnly : Option Nat := none

def Answers.mapping (a : Answers) : Option Nat :=
  a.mmap <|> if a.refused then a.mmapReadOnly else none

namespace Buffer

/-- A call of gralloc on a stored pointer. -/
def deref (b : Buffer) (ptr : Pointer) : Buffer :=
  { b with derefs := ptr :: b.derefs, table := b.table.use (some ptr.native) }

/-- `hybris_gralloc_release`; releasing an allocation closes its descriptors. -/
def release (b : Buffer) (process : Process) : Option Pointer → Buffer
  | some ptr => { b with
      derefs := ptr :: b.derefs
      table := (b.table.close ptr.native).closeAll (process.fdsOf ptr.native) }
  | none => { b with table := b.table.use none }

def storeNativeHandle (b : Buffer) (process : Process) (native : Option Pointer) (owner : Owner) :
    Buffer :=
  { b with handle.slots :=
      match native with
      | some ptr => ⟨some ptr, process.pid, owner⟩
      | none => ⟨none, 0, .none⟩ }

def loadNativeHandle (b : Buffer) (process : Process) : Option Pointer × Owner :=
  if b.handle.slots.pid ≠ process.pid then (none, .none)
  else (b.handle.slots.ptr, b.handle.slots.owner)

def findMappableFd (b : Buffer) (covers : Handle Resource → Bool) : Option (Handle Resource) :=
  match (((b.handle.fd :: b.handle.reserveFds).take 9).reduceOption).find? covers with
  | some fd => some fd
  | none => b.handle.fd

/-- `Mmap` returns `addr`. -/
def mapped (b : Buffer) (how : Mechanism) (addr : Nat) : Buffer :=
  { b with handle.virAddr := some addr, held := how :: b.held, pending := b.pending ++ [how] }

/-- The second way of `Mmap`. -/
def importAndLock (b : Buffer) (process : Process) (a : Answers) : Buffer × Bool :=
  if !a.reconstruct || !a.importBuffer then (b, false)
  else
    let (table, native) := b.table.create .importRef
    let ptr := ⟨process.pid, native⟩
    let b₁ := { b with table }.deref ptr
    match a.lockImported with
    | some addr =>
      ((b₁.storeNativeHandle process (some ptr) .imported).mapped (.lock ptr) addr, true)
    | none => (b₁.release process (some ptr), false)

/-- The third way of `Mmap`. -/
def mmapFd (b : Buffer) (a : Answers) : Buffer :=
  match b.findMappableFd a.covers with
  | some fd =>
    if b.handle.size ≤ 0 then b
    else
      match a.mapping with
      | some addr => { b with table := b.table.use (some fd) }.mapped (.map addr) addr
      | none => b
  | none => b

def mmapElse (b : Buffer) (process : Process) (a : Answers) : Buffer :=
  match b.importAndLock process a with
  | (b₁, true) => b₁
  | (b₁, false) => b₁.mmapFd a

def mmap (b : Buffer) (process : Process) (a : Answers) : Buffer :=
  if !process.gralloc then b.mmapFd a
  else
    match (b.loadNativeHandle process).1 with
    | some ptr =>
      match a.lock with
      | some addr => (b.deref ptr).mapped (.lock ptr) addr
      | none => (b.deref ptr).mmapElse process a
    | none => b.mmapElse process a

def native (b : Buffer) (process : Process) : Option Pointer × Owner :=
  if process.gralloc then b.loadNativeHandle process else (none, .none)

/-- `Unmap` takes `how` back, if it is in force. -/
def undo (b : Buffer) (how : Option Mechanism) : Buffer :=
  { b with
    held := how.elim b.held b.held.erase
    pending := []
    undone := (b.pending, how.filter (· ∈ b.held)) :: b.undone }

def unmap (b : Buffer) (process : Process) : Buffer :=
  match b.native process with
  | (none, _) =>
    match b.handle.virAddr with
    | some addr =>
      if 0 < b.handle.size then { b.undo (some (.map addr)) with handle.virAddr := none }
      else b.undo none
    | none => b.undo none
  | (some ptr, owner) =>
    let b₁ := (b.deref ptr).undo (some (.lock ptr))
    let b₂ := if owner = .imported
      then (b₁.release process (some ptr)).storeNativeHandle process none .none else b₁
    { b₂ with handle.virAddr := none }

/-- `FlushCache` and `InvalidateCache`: the handle is unlocked and, when the buffer is mapped,
locked again; what the lock returns is ignored.  A direct mapping only needs a sync of the
descriptor, which is not modelled. -/
def relock (b : Buffer) (process : Process) (lock : Option Nat) : Buffer :=
  match (b.native process).1 with
  | none => b
  | some ptr =>
    let b₁ := { b.deref ptr with held := b.held.erase (.lock ptr) }
    if b.handle.virAddr.isSome then
      { b₁.deref ptr with held := if lock.isSome then .lock ptr :: b₁.held else b₁.held }
    else b₁

def freeMem (b : Buffer) (process : Process) : Buffer :=
  let (native, owner) := b.loadNativeHandle process
  if owner = .allocated then { b.release process native with freed := true }
  else
    let b₁ := if owner = .imported then b.release process native else b
    { b₁ with table := b₁.table.closeAll b₁.handle.fds, freed := true }

end Buffer

inductive Operation where
  | mmap (a : Answers)
  | unmap
  | flushCache (lock : Option Nat)
  | invalidateCache (lock : Option Nat)
  | freeMem

def Buffer.step (process : Process) (b : Buffer) (operation : Operation) : Option Buffer :=
  if b.freed then none
  else some <| match operation with
    | .mmap a => b.mmap process a
    | .unmap => b.unmap process
    | .flushCache lock | .invalidateCache lock => b.relock process lock
    | .freeMem => b.freeMem process

/-- No call has been made yet. -/
structure Fresh (b : Buffer) : Prop where
  derefs : b.derefs = []
  held : b.held = []
  pending : b.pending = []
  undone : b.undone = []
  freed : b.freed = false

/-- What a process starts with: a buffer of its own `AllocMem`, or one that another process sent,
with whatever that process had in the slots. -/
inductive Begins (process : Process) (b : Buffer) : Prop where
  | allocated (native : Handle Resource) (h : process.allocation = some (native, b.handle.fds))
      (hslots : b.handle.slots = ⟨some ⟨process.pid, native⟩, process.pid, .allocated⟩)
      (hvir : b.handle.virAddr = none)
      (howned : Owns b.table ({native} + (b.handle.fds : Multiset (Handle Resource))))
      (hfresh : Fresh b)
  | received (h : process.allocation = none) (hpid : b.handle.slots.pid ≠ process.pid)
      (howned : Owns b.table (b.handle.fds : Multiset (Handle Resource))) (hfresh : Fresh b)

/-- None of the ways to map the buffer succeeds. -/
def MmapFails (process : Process) (b : Buffer) (a : Answers) : Prop :=
  (b.findMappableFd a.covers = none ∨ b.handle.size ≤ 0 ∨ a.mapping = none) ∧
    (process.gralloc = true →
      (a.reconstruct && a.importBuffer && a.lockImported.isSome) = false ∧
      ((b.loadNativeHandle process).1.isSome → a.lock = none))

/-- The condition on a call.  A `Mmap` that does not fail is for a buffer that is not mapped, and
when gralloc has a handle that this process allocated, the lock succeeds; so does the lock that
`FlushCache` and `InvalidateCache` take again on a mapped buffer. -/
def Fits (process : Process) (b : Buffer) : Operation → Prop
  | .mmap a => MmapFails process b a ∨ b.pending = [] ∧
      (process.gralloc = true → (b.loadNativeHandle process).2 = .allocated → a.lock.isSome)
  | .flushCache lock | .invalidateCache lock =>
    (b.native process).1.isSome → b.handle.virAddr.isSome → lock.isSome
  | _ => True

/-- The buffer is not mapped. -/
def Idle (b : Buffer) : Prop := b.pending = [] ∧ b.held = []

/-- It is mapped by the lock of `native`. -/
structure Locked (process : Process) (b : Buffer) (native : Handle Resource) : Prop where
  gralloc : process.gralloc = true
  pending : b.pending = [.lock ⟨process.pid, native⟩]
  held : b.held = [.lock ⟨process.pid, native⟩]
  virAddr : b.handle.virAddr.isSome

/-- It is mapped by a descriptor. -/
def Direct (b : Buffer) : Prop :=
  ∃ addr, b.pending = [.map addr] ∧ b.held = [.map addr] ∧ b.handle.virAddr = some addr ∧
    0 < b.handle.size

inductive Situation (process : Process) (b : Buffer) : Prop where
  | own (native : Handle Resource) (h : process.allocation = some (native, b.handle.fds))
      (hslots : b.handle.slots = ⟨some ⟨process.pid, native⟩, process.pid, .allocated⟩)
      (howned : Owns b.table ({native} + (b.handle.fds : Multiset (Handle Resource))))
      (hlive : b.freed = false)
      (hway : Idle b ∧ b.handle.virAddr = none ∨ Locked process b native ∨
        process.gralloc = false ∧ Direct b)
  | foreign (h : process.allocation = none) (hpid : b.handle.slots.pid ≠ process.pid)
      (howned : Owns b.table (b.handle.fds : Multiset (Handle Resource)))
      (hlive : b.freed = false) (hway : Idle b ∨ Direct b)
  | imported (native : Handle Resource) (h : process.allocation = none)
      (hslots : b.handle.slots = ⟨some ⟨process.pid, native⟩, process.pid, .imported⟩)
      (howned : Owns b.table ({native} + (b.handle.fds : Multiset (Handle Resource))))
      (hlive : b.freed = false) (hway : Locked process b native)
  | freed (h : b.freed = true) (howned : Owns b.table 0)

structure Sound (process : Process) (b : Buffer) : Prop where
  situation : Situation process b
  undone : ∀ entry ∈ b.undone, entry.1 = [] ∨ ∃ how, entry = ([how], some how)
  derefs : ∀ ptr ∈ b.derefs, ptr.pid = process.pid

section Calls
variable {process : Process} {b b' : Buffer} {a : Answers} {owners : Multiset (Handle Resource)}
  {native : Handle Resource}

theorem mem_fds_of_findMappableFd {covers : Handle Resource → Bool} {fd : Handle Resource}
    (h : b.findMappableFd covers = some fd) : fd ∈ b.handle.fds := by
  rw [Buffer.findMappableFd] at h
  rw [BufferHandle.fds, reduceOption_mem_iff]
  split at h
  · rename_i found hfound
    cases h
    exact mem_of_mem_take (reduceOption_mem_iff.mp (mem_of_find?_eq_some hfound))
  · exact mem_cons.mpr (.inl h.symm)

theorem mmapFd_failed
    (h : b.findMappableFd a.covers = none ∨ b.handle.size ≤ 0 ∨ a.mapping = none) :
    b.mmapFd a = b := by
  rw [Buffer.mmapFd]
  grind

theorem mmapFd_cases (howned : Owns b.table owners) (hfds : ∀ fd ∈ b.handle.fds, fd ∈ owners) :
    b.mmapFd a = b ∨ ∃ addr, 0 < b.handle.size ∧ b.mmapFd a = b.mapped (.map addr) addr := by
  rw [Buffer.mmapFd]
  split
  · rename_i fd hfd
    split_ifs with hsize
    · exact .inl rfl
    · cases a.mapping with
      | none => exact .inl rfl
      | some addr =>
        refine .inr ⟨addr, not_le.mp hsize, ?_⟩
        rw [howned.use_eq (hfds fd (mem_fds_of_findMappableFd hfd))]
  · exact .inl rfl

theorem loadNativeHandle_own {owner : Owner}
    (h : b.handle.slots = ⟨some ⟨process.pid, native⟩, process.pid, owner⟩) :
    b.loadNativeHandle process = (some ⟨process.pid, native⟩, owner) := by
  simp [Buffer.loadNativeHandle, h]

theorem loadNativeHandle_foreign (h : b.handle.slots.pid ≠ process.pid) :
    b.loadNativeHandle process = (none, .none) := if_pos h

/-- Only the resources and the record of gralloc's arguments have changed. -/
theorem Sound.replace {table : Handles Resource} {derefs : List Pointer} (hs : Sound process b)
    (howned : Owns b.table owners) (htable : Owns table owners)
    (hderefs : ∀ ptr ∈ derefs, ptr.pid = process.pid) :
    Sound process { b with table, derefs } := by
  have hsame : ∀ {owners'}, Owns b.table owners' → Owns table owners' := fun h =>
    h.unique howned ▸ htable
  refine ⟨?_, hs.undone, hderefs⟩
  cases hs.situation with
  | own native halloc hslots howned hlive hway =>
    exact .own native halloc hslots (hsame howned) hlive
      (hway.imp_right (.imp_left fun h => { h with }))
  | foreign halloc hpid howned hlive hway => exact .foreign halloc hpid (hsame howned) hlive hway
  | imported native halloc hslots howned hlive hway =>
    exact .imported native halloc hslots (hsame howned) hlive { hway with }
  | freed h howned => exact .freed h (hsame howned)

theorem Sound.deref (hs : Sound process b) (howned : Owns b.table owners)
    (hnative : native ∈ owners) :
    Sound process (b.deref ⟨process.pid, native⟩) ∧
    Owns (b.deref ⟨process.pid, native⟩).table owners := by
  have hdowned : Owns (b.table.use (some native)) owners := howned.use hnative
  exact ⟨hs.replace howned hdowned (forall_mem_cons.mpr ⟨rfl, hs.derefs⟩), hdowned⟩

/-- What an open buffer owns: the allocation, and the handle that the slots point to. -/
theorem Situation.holds (h : Situation process b) (hfreed : b.freed = false) :
    ∃ owners, Owns b.table owners ∧
      (∀ native fds, process.allocation = some (native, fds) → native ∈ owners) ∧
      ∀ ptr, (b.loadNativeHandle process).1 = some ptr →
        ∃ native ∈ owners, ptr = ⟨process.pid, native⟩ := by
  cases h with
  | own native halloc hslots howned =>
    exact ⟨_, howned, by simp [halloc], by simp [loadNativeHandle_own hslots]⟩
  | foreign halloc hpid howned =>
    exact ⟨_, howned, by simp [halloc], by simp [loadNativeHandle_foreign hpid]⟩
  | imported native halloc hslots howned =>
    exact ⟨_, howned, by simp [halloc], by simp [loadNativeHandle_own hslots]⟩
  | freed h => cases hfreed.symm.trans h

/-- An import that is not kept leaves the resources as they were. -/
theorem importAndLock_failed (howned : Owns b.table owners)
    (hfail : (a.reconstruct && a.importBuffer && a.lockImported.isSome) = false)
    (halloc : ∀ native fds, process.allocation = some (native, fds) → native ∈ owners) :
    ∃ table derefs, b.importAndLock process a = ({ b with table, derefs }, false) ∧
      Owns table owners ∧ ∀ ptr ∈ derefs, ptr ∈ b.derefs ∨ ptr.pid = process.pid := by
  rw [Buffer.importAndLock]
  split_ifs with himport
  · exact ⟨b.table, b.derefs, rfl, howned, fun ptr hptr => .inl hptr⟩
  have hlock : a.lockImported = none := by
    cases hr : a.reconstruct <;> cases hi : a.importBuffer <;> simp_all
  rw [hlock]
  -- The reference is new, so no descriptor of the allocation goes with it.
  have hnew : process.fdsOf (b.table.create .importRef).2 = [] := by
    unfold Process.fdsOf
    split
    · rename_i own fds hown
      exact if_neg (howned.create_ne (halloc own fds hown)).symm
    · rfl
  have hused := (howned.create .importRef).use mem_singleton_add
  refine ⟨_, _, rfl, ?_, fun ptr hptr => ?_⟩
  · show Owns (Handles.closeAll _ (process.fdsOf (b.table.create .importRef).2)) owners
    rw [hnew]
    exact hused.close
  · obtain rfl | hptr : ptr = ⟨process.pid, (b.table.create .importRef).2⟩ ∨ ptr ∈ b.derefs := by
      simpa [Buffer.deref, Handles.create] using hptr
    · exact .inr rfl
    · exact .inl hptr

theorem Sound.mmapElse_failed (hs : Sound process b) (howned : Owns b.table owners)
    (halloc : ∀ native fds, process.allocation = some (native, fds) → native ∈ owners)
    (himport : (a.reconstruct && a.importBuffer && a.lockImported.isSome) = false)
    (hfd : b.findMappableFd a.covers = none ∨ b.handle.size ≤ 0 ∨ a.mapping = none) :
    Sound process (b.mmapElse process a) := by
  obtain ⟨table, derefs, heq, htable, hderefs⟩ := importAndLock_failed howned himport halloc
  rw [Buffer.mmapElse, heq]
  show Sound process ({ b with table, derefs }.mmapFd a)
  rw [mmapFd_failed (b := { b with table, derefs }) hfd]
  exact hs.replace howned htable fun ptr hptr => (hderefs ptr hptr).elim (hs.derefs ptr) id

theorem Sound.mmap_failed (hs : Sound process b) (hfreed : b.freed = false)
    (hfails : MmapFails process b a) : Sound process (b.mmap process a) := by
  obtain ⟨owners, howned, halloc, hstored⟩ := hs.situation.holds hfreed
  obtain ⟨hfd, hothers⟩ := hfails
  rw [Buffer.mmap]
  cases hgralloc : process.gralloc with
  | false =>
    show Sound process (b.mmapFd a)
    rw [mmapFd_failed hfd]
    exact hs
  | true =>
    obtain ⟨himport, hlock⟩ := hothers hgralloc
    cases hload : (b.loadNativeHandle process).1 with
    | none => exact hs.mmapElse_failed howned halloc himport hfd
    | some ptr =>
      obtain ⟨native, hmem, rfl⟩ := hstored ptr hload
      obtain ⟨hderef, hdowned⟩ := hs.deref howned hmem
      rw [hload] at hlock
      rw [hlock rfl]
      exact hderef.mmapElse_failed hdowned halloc himport hfd

/-- A descriptor is mapped, or the buffer stays as it was. -/
theorem Idle.mmapFd (hidle : Idle b) (howned : Owns b.table owners)
    (hfds : ∀ fd ∈ b.handle.fds, fd ∈ owners) :
    b.mmapFd a = b ∨ ∃ addr, b.mmapFd a = b.mapped (.map addr) addr ∧
      Direct (b.mapped (.map addr) addr) := by
  refine (mmapFd_cases howned hfds).imp_right fun ⟨addr, hsize, heq⟩ => ⟨addr, heq, addr, ?_⟩
  simp [Buffer.mapped, hidle.1, hidle.2, hsize]

/-- The second and third way, for a buffer that another process sent. -/
theorem Sound.mmapElse (hs : Sound process b) (halloc : process.allocation = none)
    (hpid : b.handle.slots.pid ≠ process.pid)
    (howned : Owns b.table (b.handle.fds : Multiset (Handle Resource))) (hlive : b.freed = false)
    (hgralloc : process.gralloc = true) (hidle : Idle b) :
    Sound process (b.mmapElse process a) := by
  rw [Buffer.mmapElse]
  by_cases hlocked : (a.reconstruct && a.importBuffer && a.lockImported.isSome) = true
  · obtain ⟨⟨hr, hi⟩, hlock⟩ : (a.reconstruct = true ∧ a.importBuffer = true) ∧ _ := by
      simpa using hlocked
    obtain ⟨addr, hlock⟩ := isSome_iff_exists.mp hlock
    simp only [Buffer.importAndLock, hr, hi, hlock]
    refine ⟨.imported _ halloc rfl ((howned.create .importRef).use mem_singleton_add) hlive
      ⟨hgralloc, ?_, ?_, rfl⟩, hs.undone, forall_mem_cons.mpr ⟨rfl, hs.derefs⟩⟩
    · exact congrArg (· ++ _) hidle.1
    · exact congrArg (_ :: ·) hidle.2
  · obtain ⟨table, derefs, heq, htable, hderefs⟩ := importAndLock_failed howned
      (Bool.eq_false_iff.mpr hlocked)
      fun native fds (h : process.allocation = some (native, fds)) => by simp [halloc] at h
    have hsame :=
      hs.replace howned htable fun ptr hptr => (hderefs ptr hptr).elim (hs.derefs ptr) id
    rw [heq]
    show Sound process ({ b with table, derefs }.mmapFd a)
    obtain hnone | ⟨addr, hmapped, hdirect⟩ :=
      Idle.mmapFd (a := a) (b := { b with table, derefs }) hidle htable fun fd hfd => hfd
    · rw [hnone]
      exact hsame
    · rw [hmapped]
      exact ⟨.foreign halloc hpid htable hlive (.inr hdirect), hs.undone, hsame.derefs⟩

theorem Sound.mmap (hs : Sound process b) (hfreed : b.freed = false)
    (hfits : Fits process b (.mmap a)) : Sound process (b.mmap process a) := by
  obtain hfails | ⟨hpending, hfits⟩ := hfits
  · exact hs.mmap_failed hfreed hfails
  rw [Buffer.mmap]
  cases hs.situation with
  | own native halloc hslots howned _ hway =>
    have hidle : Idle b := by
      obtain h | h | ⟨-, addr, h, -⟩ := hway
      · exact h.1
      · cases hpending.symm.trans h.pending
      · cases hpending.symm.trans h
    cases hgralloc : process.gralloc with
    | true =>
      have hload := loadNativeHandle_own hslots
      obtain ⟨hderef, hdowned⟩ := hs.deref howned mem_singleton_add
      obtain ⟨addr, hlock⟩ := isSome_iff_exists.mp (hfits hgralloc (by rw [hload]))
      rw [hload, hlock]
      refine ⟨.own native halloc hslots hdowned hfreed (.inr (.inl ⟨hgralloc, ?_, ?_, rfl⟩)),
        hs.undone, hderef.derefs⟩
      · exact congrArg (· ++ _) hidle.1
      · exact congrArg (_ :: ·) hidle.2
    | false =>
      show Sound process (b.mmapFd a)
      obtain hnone | ⟨addr, hmapped, hdirect⟩ :=
        hidle.mmapFd (a := a) howned fun fd hfd => Multiset.mem_add.mpr (.inr hfd)
      · rw [hnone]
        exact hs
      · rw [hmapped]
        exact ⟨.own native halloc hslots howned hfreed (.inr (.inr ⟨hgralloc, hdirect⟩)),
          hs.undone, hs.derefs⟩
  | foreign halloc hpid howned _ hway =>
    have hidle : Idle b := by
      obtain h | ⟨addr, h, -⟩ := hway
      · exact h
      · cases hpending.symm.trans h
    cases hgralloc : process.gralloc with
    | true =>
      rw [loadNativeHandle_foreign hpid]
      exact hs.mmapElse halloc hpid howned hfreed hgralloc hidle
    | false =>
      show Sound process (b.mmapFd a)
      obtain hnone | ⟨addr, hmapped, hdirect⟩ := hidle.mmapFd (a := a) howned fun fd hfd => hfd
      · rw [hnone]
        exact hs
      · rw [hmapped]
        exact ⟨.foreign halloc hpid howned hfreed (.inr hdirect), hs.undone, hs.derefs⟩
  | imported native halloc hslots howned _ hway => cases hpending.symm.trans hway.pending
  | freed h => cases hfreed.symm.trans h

theorem native_own {owner : Owner} (hgralloc : process.gralloc = true)
    (h : b.handle.slots = ⟨some ⟨process.pid, native⟩, process.pid, owner⟩) :
    b.native process = (some ⟨process.pid, native⟩, owner) := by
  rw [Buffer.native, if_pos hgralloc, loadNativeHandle_own h]

theorem native_none (h : process.gralloc = false ∨ b.handle.slots.pid ≠ process.pid) :
    b.native process = (none, .none) := by
  grind [Buffer.native, Buffer.loadNativeHandle]

/-- What is in force is what is pending, so that undoing it leaves nothing. -/
theorem Sound.undo {b' : Buffer} {how : Option Mechanism} (hs : Sound process b)
    (hway : Idle b ∨ ∃ m, how = some m ∧ b.pending = [m] ∧ b.held = [m])
    (hb : b' = b.undo how) :
    Idle b' ∧ ∀ entry ∈ b'.undone, entry.1 = [] ∨ ∃ m, entry = ([m], some m) := by
  subst hb
  obtain ⟨hpending, hheld⟩ | ⟨m, rfl, hpending, hheld⟩ := hway
  · refine ⟨⟨rfl, ?_⟩, forall_mem_cons.mpr ⟨.inl hpending, hs.undone⟩⟩
    cases how <;> simp [Buffer.undo, hheld]
  · refine ⟨⟨rfl, by simp [Buffer.undo, hheld]⟩, forall_mem_cons.mpr ⟨.inr ⟨m, ?_⟩, hs.undone⟩⟩
    simp [hpending, hheld]

theorem unmap_direct (hnative : b.native process = (none, .none)) (hway : Idle b ∨ Direct b) :
    ∃ how virAddr, b.unmap process = { b.undo how with handle.virAddr := virAddr } ∧
      (b.handle.virAddr = none ∨ ¬ Idle b → virAddr = none) ∧
      (Idle b ∨ ∃ m, how = some m ∧ b.pending = [m] ∧ b.held = [m]) := by
  have hkept : { b.undo none with handle.virAddr := b.handle.virAddr } = b.undo none := rfl
  rw [Buffer.unmap, hnative]
  obtain hidle | ⟨addr, hpending, hheld, haddr, hsize⟩ := hway
  · cases haddr : b.handle.virAddr with
    | none => exact ⟨none, b.handle.virAddr, hkept.symm, fun _ => haddr, .inl hidle⟩
    | some addr =>
      by_cases hsize : 0 < b.handle.size
      · exact ⟨some (.map addr), none, if_pos hsize, fun _ => rfl, .inl hidle⟩
      · exact ⟨none, b.handle.virAddr, (if_neg hsize).trans hkept.symm, by simp [haddr, hidle],
          .inl hidle⟩
  · rw [haddr]
    exact ⟨some (.map addr), none, if_pos hsize, fun _ => rfl, .inr ⟨_, rfl, hpending, hheld⟩⟩

theorem release_import (halloc : process.allocation = none)
    (howned : Owns b.table ({native} + owners)) :
    Owns ((b.table.close native).closeAll (process.fdsOf native)) owners := by
  rw [Process.fdsOf, halloc]
  exact howned.close

namespace Sound
variable (hs : Sound process b)
include hs

theorem unmap (hfreed : b.freed = false) :
    Sound process (b.unmap process) := by
  cases hs.situation with
  | own native halloc hslots howned _ hway =>
    cases hgralloc : process.gralloc with
    | true =>
      obtain ⟨hderef, hdowned⟩ := hs.deref howned mem_singleton_add
      have hlocked : Idle b ∨ ∃ m, some (Mechanism.lock ⟨process.pid, native⟩) = some m ∧
          b.pending = [m] ∧ b.held = [m] := by
        obtain h | h | ⟨hno, -⟩ := hway
        · exact .inl h.1
        · exact .inr ⟨_, rfl, h.pending, h.held⟩
        · cases hgralloc.symm.trans hno
      obtain ⟨hidle, hundone⟩ := hderef.undo hlocked rfl
      rw [Buffer.unmap, native_own hgralloc hslots]
      exact ⟨.own native halloc hslots hdowned hfreed (.inl ⟨hidle, rfl⟩), hundone, hderef.derefs⟩
    | false =>
      have hdirect : (Idle b ∨ Direct b) ∧ (b.handle.virAddr = none ∨ ¬ Idle b) := by
        obtain h | h | ⟨-, addr, h⟩ := hway
        · exact ⟨.inl h.1, .inl h.2⟩
        · cases hgralloc.symm.trans h.gralloc
        · exact ⟨.inr ⟨addr, h⟩, .inr fun hidle => by cases hidle.1.symm.trans h.1⟩
      obtain ⟨how, virAddr, heq, hvir, hfound⟩ := unmap_direct (native_none (.inl hgralloc))
        hdirect.1
      obtain ⟨hidle, hundone⟩ := hs.undo hfound rfl
      rw [heq]
      exact ⟨.own native halloc hslots howned hfreed (.inl ⟨hidle, hvir hdirect.2⟩), hundone, hs.derefs⟩
  | foreign halloc hpid howned _ hway =>
    obtain ⟨how, virAddr, heq, -, hfound⟩ := unmap_direct (native_none (.inr hpid)) hway
    obtain ⟨hidle, hundone⟩ := hs.undo hfound rfl
    rw [heq]
    exact ⟨.foreign halloc hpid howned hfreed (.inl hidle), hundone, hs.derefs⟩
  | imported native halloc hslots howned _ hway =>
    obtain ⟨hderef, hdowned⟩ := hs.deref howned mem_singleton_add
    obtain ⟨hidle, hundone⟩ := hderef.undo (.inr ⟨_, rfl, hway.pending, hway.held⟩) rfl
    rw [Buffer.unmap, native_own hway.gralloc hslots]
    exact ⟨.foreign halloc process.positive.ne (release_import halloc hdowned) hfreed (.inl hidle),
      hundone, forall_mem_cons.mpr ⟨rfl, hderef.derefs⟩⟩
  | freed h => cases hfreed.symm.trans h

/-- The lock is taken back and taken again, and nothing else changes. -/
theorem relock_stored (howned : Owns b.table owners)
    (hnative : native ∈ owners) {owner : Owner} {lock : Option Nat}
    (hstored : b.native process = (some ⟨process.pid, native⟩, owner))
    (hway : Idle b ∧ b.handle.virAddr = none ∨ Locked process b native)
    (hlock : b.handle.virAddr.isSome → lock.isSome) : Sound process (b.relock process lock) := by
  have hsame : ∀ derefs : List Pointer, (∀ ptr ∈ derefs, ptr.pid = process.pid) →
      Sound process { b with derefs } := fun derefs hderefs => hs.replace howned howned hderefs
  rw [Buffer.relock, hstored]
  obtain ⟨⟨-, hheld⟩, hvir⟩ | hlocked := hway
  · simpa [Buffer.deref, howned.use_eq hnative, hvir, hheld] using
      hsame _ (forall_mem_cons.mpr ⟨rfl, hs.derefs⟩)
  · simpa [Buffer.deref, howned.use_eq hnative, hlocked.virAddr, hlock hlocked.virAddr,
      hlocked.held] using
      hsame _ (forall_mem_cons.mpr ⟨rfl, forall_mem_cons.mpr ⟨rfl, hs.derefs⟩⟩)

theorem relock (hfreed : b.freed = false) {lock : Option Nat}
    (hlock : (b.native process).1.isSome → b.handle.virAddr.isSome → lock.isSome) :
    Sound process (b.relock process lock) := by
  have hnone : b.native process = (none, .none) → Sound process (b.relock process lock) := by
    intro h
    rw [Buffer.relock, h]
    exact hs
  cases hs.situation with
  | own native halloc hslots howned _ hway =>
    cases hgralloc : process.gralloc with
    | false => exact hnone (native_none (.inl hgralloc))
    | true =>
      have hstored := native_own hgralloc hslots
      refine hs.relock_stored howned mem_singleton_add hstored ?_ (hlock (by rw [hstored]; rfl))
      exact hway.imp_right (Or.resolve_right · fun h => by cases hgralloc.symm.trans h.1)
  | foreign halloc hpid => exact hnone (native_none (.inr hpid))
  | imported native halloc hslots howned _ hway =>
    have hstored := native_own hway.gralloc hslots
    exact hs.relock_stored howned mem_singleton_add hstored (.inr hway)
      (hlock (by rw [hstored]; rfl))
  | freed h => cases hfreed.symm.trans h

theorem freeMem (hfreed : b.freed = false) :
    Sound process (b.freeMem process) := by
  cases hs.situation with
  | own native halloc hslots howned =>
    have hclosed : Owns ((b.table.close native).closeAll (process.fdsOf native)) 0 := by
      simpa [Process.fdsOf, halloc] using (howned.close.congr (add_zero _).symm).closeAll
    rw [Buffer.freeMem, loadNativeHandle_own hslots]
    exact ⟨.freed rfl hclosed, hs.undone, forall_mem_cons.mpr ⟨rfl, hs.derefs⟩⟩
  | foreign halloc hpid howned =>
    rw [Buffer.freeMem, loadNativeHandle_foreign hpid]
    exact ⟨.freed rfl (howned.congr (add_zero _).symm).closeAll, hs.undone, hs.derefs⟩
  | imported native halloc hslots howned =>
    rw [Buffer.freeMem, loadNativeHandle_own hslots]
    exact ⟨.freed rfl ((release_import halloc howned).congr (add_zero _).symm).closeAll, hs.undone,
      forall_mem_cons.mpr ⟨rfl, hs.derefs⟩⟩
  | freed h => cases hfreed.symm.trans h

theorem step {operation : Operation}
    (hfits : Fits process b operation) (hstep : b.step process operation = some b') :
    Sound process b' := by
  obtain ⟨hfreed, hstep⟩ := Option.ite_none_left_eq_some.mp hstep
  rw [Bool.not_eq_true] at hfreed
  cases operation <;> cases hstep
  · exact hs.mmap hfreed hfits
  · exact hs.unmap hfreed
  · exact hs.relock hfreed hfits
  · exact hs.relock hfreed hfits
  · exact hs.freeMem hfreed

end Sound

theorem Begins.sound (h : Begins process b) : Sound process b := by
  cases h with
  | allocated native halloc hslots hvir howned hfresh =>
    exact ⟨.own native halloc hslots howned hfresh.freed
      (.inl ⟨⟨hfresh.pending, hfresh.held⟩, hvir⟩), by simp [hfresh.undone],
      by simp [hfresh.derefs]⟩
  | received halloc hpid howned hfresh =>
    exact ⟨.foreign halloc hpid howned hfresh.freed (.inl ⟨hfresh.pending, hfresh.held⟩),
      by simp [hfresh.undone], by simp [hfresh.derefs]⟩

/-- What an own allocation has in its slots until it is freed. -/
theorem Sound.slots_eq (hs : Sound process b) (hfreed : b.freed = false)
    {fds : List (Handle Resource)} (halloc : process.allocation = some (native, fds)) :
    b.handle.slots = ⟨some ⟨process.pid, native⟩, process.pid, .allocated⟩ := by
  cases hs.situation with
  | own native' halloc' hslots =>
    cases halloc.symm.trans halloc'
    exact hslots
  | foreign halloc' => cases halloc.symm.trans halloc'
  | imported native' halloc' => cases halloc.symm.trans halloc'
  | freed h => cases hfreed.symm.trans h

theorem Sound.owns (hs : Sound process b) :
    ∃ owners, Owns b.table owners ∧ (b.freed = true → owners = 0) := by
  cases hs.situation with
  | own native halloc hslots howned hlive | foreign halloc hpid howned hlive
    | imported native halloc hslots howned hlive =>
    exact ⟨_, howned, fun h => by cases hlive.symm.trans h⟩
  | freed h howned => exact ⟨0, howned, fun _ => rfl⟩

end Calls

/-- **Every mapping is undone in its own way**, nothing is released twice, everything is released in
the end, and gralloc only gets pointers of this process, in every run whose calls meet the
condition. -/
theorem mapping_undone (process : Process) (start : Buffer) (hbegins : Begins process start)
    (operations : List Operation) (b : Buffer)
    (hrun : run (Buffer.step process) start operations = some b)
    (hfits : Along (Buffer.step process) (Fits process) start operations) :
    (∀ entry ∈ b.undone, entry.1 = [] ∨ ∃ how, entry = ([how], some how)) ∧
    ((start.loadNativeHandle process).2 = .allocated → b.freed = false →
      b.handle.slots = start.handle.slots) ∧
    b.table.bad = [] ∧ b.table.closed.Nodup ∧ (b.freed = true → b.table.opened = []) ∧
    ∀ ptr ∈ b.derefs, ptr.pid = process.pid := by
  have hs : Sound process b := run_invariant_along
    (fun _ _ _ hs hfits hstep => hs.step hfits hstep) hfits hrun hbegins.sound
  obtain ⟨owners, howned, hclosed⟩ := hs.owns
  refine ⟨hs.undone, fun howner hfreed => ?_, howned.proper, howned.closed_nodup,
    fun h => (howned.congr (hclosed h)).opened_nil, hs.derefs⟩
  cases hbegins with
  | allocated native halloc hslots => exact (hs.slots_eq hfreed halloc).trans hslots.symm
  | received halloc hpid => rw [loadNativeHandle_foreign hpid] at howner; cases howner

/-! ### The slots in memory -/

def Owner.ofInt32 (value : Int32) : Owner :=
  if value = 0 then .none else if value = 1 then .allocated
  else if value = 2 then .imported else .other value.toInt

/-- What the trailing words of a handle mean; `resolve` gives the handle at an address. -/
def slotsOf (resolve : UInt64 → Handle Resource) (raw : Import.BufferHandle) : Slots :=
  match (raw.reserveFds ++ raw.reserveInts).drop
    (raw.reserveFds.length + raw.reserveInts.length - Alloc.kPtrSlots) with
  | [lo, hi, pid, owner] =>
    let native := join64 hi.toUInt32 lo.toUInt32
    ⟨if native ≠ 0 then some ⟨pid.toInt, resolve native⟩ else none, pid.toInt, .ofInt32 owner⟩
  | _ => ⟨none, 0, .none⟩

/-- **The slots mean what was stored**: the words that `AllocMem` writes stand for the pointer, the
process and the owner that the calls above go by. -/
theorem slotsOf_store (resolve : UInt64 → Handle Resource) {raw : Import.BufferHandle}
    (hslots : Alloc.kPtrSlots ≤ raw.reserveFds.length + raw.reserveInts.length)
    (process : Process) (b : Buffer) {pid : Int32} (hpid : pid.toInt = process.pid)
    (native : UInt64) (owner : Alloc.Owner) :
    slotsOf resolve (Alloc.storeNativeHandle raw pid native owner) =
      (b.storeNativeHandle process (if native ≠ 0 then some ⟨process.pid, resolve native⟩ else none)
         (.ofInt32 owner.toInt32)).handle.slots := by
  have hstored : ∀ words : List Int32, words.length = Alloc.kPtrSlots →
      (overwrite (raw.reserveFds ++ raw.reserveInts)
        (raw.reserveFds.length + raw.reserveInts.length - Alloc.kPtrSlots) words).drop
          (raw.reserveFds.length + raw.reserveInts.length - Alloc.kPtrSlots) = words := by
    intro words hwords
    have htake := @take_overwrite _ (raw.reserveFds ++ raw.reserveInts) words
      (raw.reserveFds.length + raw.reserveInts.length - Alloc.kPtrSlots)
      (by rw [length_append]; omega)
    rw [take_of_length_le (by rw [length_overwrite, length_append]; omega)] at htake
    rw [htake, drop_left' (by rw [length_take, length_append]; omega)]
  have hfits : raw.reserveFds.length ≤ raw.reserveFds.length + raw.reserveInts.length :=
    Nat.le_add_right ..
  simp only [slotsOf, Alloc.storeNativeHandle, take_append_drop, length_take, length_drop,
    length_overwrite, length_append, min_eq_left hfits, Nat.add_sub_cancel_left]
  rw [hstored _ rfl]
  by_cases hnative : native = 0
  · subst hnative
    rfl
  · simp [Buffer.storeNativeHandle, hnative, hpid, join64_split]

/-! ### Two buffers -/

def bufferOwn : Buffer where
  handle := {
    fd := some ⟨.fd, 0⟩, size := 4096
    slots := ⟨some ⟨7, ⟨.allocation, 1⟩⟩, 7, .allocated⟩ }
  table := { opened := [⟨.allocation, 1⟩, ⟨.fd, 0⟩], next := 2 }

def processOwn : Process := ⟨7, by decide, true, some (⟨.allocation, 1⟩, [⟨.fd, 0⟩])⟩

/-- The same buffer in the process that it is sent to. -/
def bufferSent : Buffer := { bufferOwn with table := { opened := [⟨.fd, 0⟩], next := 1 } }

def processSent : Process := ⟨9, by decide, true, none⟩

def bufferUses : List Operation :=
  [.mmap { importBuffer := true, lockImported := some 4096 }, .flushCache (some 4096), .unmap,
    .mmap { mmap := some 8192 }, .invalidateCache none, .unmap, .freeMem]

theorem mapping_undone_sent :
    ∃ b, run (Buffer.step processSent) bufferSent bufferUses = some b ∧
      b.undone = [([.map 8192], some (.map 8192)),
        ([.lock ⟨9, ⟨.importRef, 1⟩⟩], some (.lock ⟨9, ⟨.importRef, 1⟩⟩))] ∧
      b.table.opened = [] ∧ b.table.closed.Nodup := by
  refine ⟨_, rfl, rfl, ?_⟩
  have hundone := mapping_undone processSent bufferSent
    (.received rfl (by decide) ⟨rfl, rfl, by decide, by decide⟩ ⟨rfl, rfl, rfl, rfl, rfl⟩)
    bufferUses _ rfl (by
      repeat first
        | exact trivial
        | refine along_cons trivial rfl ?_
        | refine along_cons (fun _ _ => rfl) rfl ?_
        | refine along_cons (.inr ⟨rfl, nofun⟩) rfl ?_
        | refine along_cons nofun rfl ?_)
  exact ⟨hundone.2.2.2.2.1 rfl, hundone.2.2.2.1⟩

theorem mapping_not_undone :
    Begins processOwn bufferOwn ∧
    (∃ b, run (Buffer.step processOwn) bufferOwn
        [.mmap { importBuffer := true, lockImported := some 4096 }, .unmap, .freeMem] = some b ∧
      b.freed = true ∧ b.table.opened = [⟨.allocation, 1⟩]) ∧
    (∃ b, run (Buffer.step processOwn) bufferOwn [.mmap { mmap := some 8192 }, .unmap] = some b ∧
      b.undone = [([.map 8192], none)] ∧ b.held = [.map 8192]) ∧
    ∃ b, run (Buffer.step processOwn) bufferOwn
        [.mmap { lock := some 4096 }, .flushCache none, .unmap] = some b ∧
      b.undone = [([.lock ⟨7, ⟨.allocation, 1⟩⟩], none)] :=
  ⟨.allocated ⟨.allocation, 1⟩ rfl rfl rfl ⟨rfl, rfl, by decide, by decide⟩
    ⟨rfl, rfl, rfl, rfl, rfl⟩, ⟨_, rfl, rfl, rfl⟩, ⟨_, rfl, rfl, rfl⟩, _, rfl, rfl⟩

end OniroSoc.Display
