import OniroSoc.Support.Runs
import OniroSoc.Launcher.Digest
import OniroSoc.Launcher.Images

/-!
# Verified images stay verified

An inode is *sealed* when it is root's, nobody may write to it and nobody has it open for writing.
`verify_image` seals the inode before it hashes it.  The way round the hash is the stamp, which
knows its file only by number, and numbers are free again when a file is gone.
-/

namespace OniroSoc.Launcher
open Support Option

def imageDigest (content : List UInt8) : Pin :=
  sha256Hex (sha256Update (sha256Init (Vector.replicate 64 0)) content)

theorem Absorbed.imageDigest {sh : Sha256} {content : List UInt8} (h : Absorbed sh content) :
    sha256Hex sh = imageDigest content :=
  h.hex_eq ((absorbed_init _).update content)

structure Inode.Sealed (i : Inode) : Prop where
  uid : i.uid = 0
  mode : unwritable i.mode
  writers : i.writers = 0

structure Inode.Pinned (i : Inode) (pin : Pin) : Prop where
  isSealed : i.Sealed
  digest : imageDigest i.content = pin

structure Inode.Evolves (i i' : Inode) : Prop where
  dev : i'.dev = i.dev
  ino : i'.ino = i.ino
  uid : i.uid = 0 → i'.uid = 0
  mode : i.uid = 0 → unwritable i.mode → unwritable i'.mode
  writers : i.Sealed → i'.writers = 0
  content : i.Sealed → i'.content = i.content

theorem Inode.Evolves.refl (i : Inode) : i.Evolves i :=
  ⟨rfl, rfl, id, fun _ h => h, Inode.Sealed.writers, fun _ => rfl⟩

variable {i i' : Inode}

theorem Inode.Sealed.evolves (h : i.Sealed) (he : i.Evolves i') : i'.Sealed :=
  ⟨he.uid h.uid, he.mode h.uid h.mode, he.writers h⟩

theorem Inode.Pinned.evolves {pin : Pin} (h : i.Pinned pin) (he : i.Evolves i') : i'.Pinned pin :=
  ⟨h.isSealed.evolves he, by rw [he.content h.isSealed, h.digest]⟩

variable {w : World} {id : Nat}

theorem World.modify_evolves (h : (w.inode id).Evolves i)
    (id' : Nat) : (w.inode id').Evolves ((w.modify id i).inode id') := by
  by_cases hid : id' = id
  · subst hid
    simpa [World.modify] using h
  · simpa [World.modify, hid] using Inode.Evolves.refl _

theorem World.move_evolves {w' : World} {m : Move} (h : w.move m = some w')
    (hid : id < w.count) : (w.inode id).Evolves (w'.inode id) := by
  cases m with
  | create name new =>
    obtain ⟨-, ⟨⟩⟩ := ite_none_right_eq_some.mp h
    simpa [World.modify, hid.ne] using Inode.Evolves.refl _
  | rename src dst | link src dst =>
    obtain ⟨_, -, rfl⟩ := map_eq_some_iff.mp h
    exact Inode.Evolves.refl _
  | unlink name =>
    cases h
    exact Inode.Evolves.refl _
  | chmod id' mode | utimes id' mtime =>
    obtain ⟨⟨-, huid⟩, ⟨⟩⟩ := ite_none_right_eq_some.mp h
    refine World.modify_evolves ?_ id
    exact ⟨rfl, rfl, fun h0 => h0, fun h0 => absurd h0 huid, fun hs => absurd hs.uid huid,
      fun _ => rfl⟩
  | openWrite id' =>
    obtain ⟨⟨-, hmode⟩, ⟨⟩⟩ := ite_none_right_eq_some.mp h
    refine World.modify_evolves ?_ id
    exact ⟨rfl, rfl, fun h0 => h0, fun _ h0 => h0, fun hs => absurd hs.mode hmode, fun _ => rfl⟩
  | write id' content mtime =>
    obtain ⟨hw, ⟨⟩⟩ := ite_none_right_eq_some.mp h
    refine World.modify_evolves ?_ id
    exact ⟨rfl, rfl, fun h0 => h0, fun _ h0 => h0, Inode.Sealed.writers,
      fun hs => absurd hs.writers hw.ne'⟩
  | closeWrite id' =>
    obtain ⟨hw, ⟨⟩⟩ := ite_none_right_eq_some.mp h
    refine World.modify_evolves ?_ id
    exact ⟨rfl, rfl, fun h0 => h0, fun _ h0 => h0, fun hs => absurd hs.writers hw.ne', fun _ => rfl⟩

def Phase.Knows (pin : Pin) (i : Inode) : Phase → Prop
  | .opened | .unstamped | .failed => True
  | .checked st => st.dev = i.dev ∧ st.ino = i.ino
  | .owned => i.uid = 0
  | .readOnly => i.uid = 0 ∧ unwritable i.mode
  | .hashing off sh => i.Sealed ∧ Absorbed sh (i.content.take off)
  | .matched | .returned | .closed => i.Pinned pin
  | .rechecked st => i.Pinned pin ∧ st.dev = i.dev ∧ st.ino = i.ino

theorem Phase.Knows.evolves {pin : Pin} {ph : Phase} (h : ph.Knows pin i)
    (he : i.Evolves i') : ph.Knows pin i' := by
  cases ph with
  | opened | unstamped | failed => trivial
  | checked st => exact ⟨h.1.trans he.dev.symm, h.2.trans he.ino.symm⟩
  | owned => exact he.uid h
  | readOnly => exact ⟨he.uid h.1, he.mode h.1 h.2⟩
  | hashing off sh => exact ⟨h.1.evolves he, by rw [he.content h.1]; exact h.2⟩
  | matched | returned | closed => exact Inode.Pinned.evolves h he
  | rechecked st => exact ⟨h.1.evolves he, h.2.1.trans he.dev.symm, h.2.2.trans he.ino.symm⟩

def Stamp.Vouches (l : Stamp) (i : Inode) : Prop := l.dev = i.dev → l.ino = i.ino → i.Pinned l.pin

theorem Stamp.Vouches.evolves {l : Stamp} (h : l.Vouches i) (he : i.Evolves i') : l.Vouches i' :=
  fun hd hi => (h (hd.trans he.dev) (hi.trans he.ino)).evolves he

section
variable {r : Run} {c : Call} {i i' : Inode} {stamps stamps' : Stamps} {ph : Phase}

inductive Run.Does (r : Run) (i : Inode) (stamps : Stamps) : Phase → Inode → Stamps → Prop
  | fstat (h : r.phase = .opened) : Does r i stamps (.checked i.stat) i stamps
  | stamped {st : Stat} (h : r.phase = .checked st) (hst : stampMatches stamps r.name st r.pin) :
      Does r i stamps .returned i stamps
  | unstamped {st : Stat} (h : r.phase = .checked st) : Does r i stamps .unstamped i stamps
  | fchown (h : r.phase = .unstamped) : Does r i stamps .owned { i with uid := 0 } stamps
  | fchmod (h : r.phase = .owned) : Does r i stamps .readOnly { i with mode := 0o444 } stamps
  | setlease (memory : Vector UInt8 64) (h : r.phase = .readOnly) (hw : i.writers = 0) :
      Does r i stamps (.hashing 0 (sha256Init memory)) i stamps
  | read {off : Nat} {sh : Sha256} {n : Nat} {buf : List UInt8} (h : r.phase = .hashing off sh)
      (hbuf : buf = (i.content.drop off).take n) :
      Does r i stamps (.hashing (off + buf.length) (sha256Update sh buf)) i stamps
  | matched {off : Nat} {sh : Sha256} (h : r.phase = .hashing off sh)
      (hoff : i.content.length ≤ off)
      (hhex : sha256Hex sh = r.pin) : Does r i stamps .matched i stamps
  | refstat (h : r.phase = .matched) : Does r i stamps (.rechecked i.stat) i stamps
  | stampWrite {st : Stat} (out : StampWrite) (h : r.phase = .rechecked st) :
      Does r i stamps .returned i (out.apply stamps r.name (st.stamp r.pin))
  | close (h : r.phase = .returned) : Does r i stamps .closed i stamps
  | fail (h : r.phase.isOpen) : Does r i stamps .failed i stamps

theorem Run.exec_does (h : r.exec c i stamps = some (ph, i', stamps')) :
    r.Does i stamps ph i' stamps' := by
  unfold Run.exec at h
  split at h
  case h_1 hph =>
    split at h <;> cases h
    exacts [.fstat hph, .fail (by rw [hph]; rfl)]
  case h_2 hph =>
    split at h <;> cases h
    case isTrue hs => exact .stamped hph hs.2.2
    case isFalse => exact .unstamped hph
  case h_3 hph => cases h; exact .fchown hph
  case h_4 hph => cases h; exact .fchmod hph
  case h_5 memory hph =>
    split at h <;> cases h
    case isTrue hw => exact .setlease memory hph hw
    case isFalse => exact .fail (by rw [hph]; rfl)
  case h_6 off sh n hph =>
    dsimp only at h
    split_ifs at h with hn hbuf hhex <;> cases h
    · exact .read hph rfl
    · -- `read` returns nothing only at the end of the file
      simp only [List.length_take, List.length_drop] at hbuf
      exact .matched hph (by omega) hhex
    · exact .fail (by rw [hph]; rfl)
  case h_7 hph => cases h; exact .refstat hph
  case h_8 out hph => cases h; exact .stampWrite out hph
  case h_9 hph => cases h; exact .close hph
  case h_10 =>
    split at h <;> cases h
    case isTrue ho => exact .fail ho.1
  case h_11 => cases h

theorem Run.Does.evolves (h : r.Does i stamps ph i' stamps') : i.Evolves i' := by
  cases h with
  | fchown => exact ⟨rfl, rfl, fun _ => rfl, fun _ h0 => h0, Inode.Sealed.writers, fun _ => rfl⟩
  | fchmod =>
    exact ⟨rfl, rfl, fun h0 => h0, fun _ _ => show unwritable 0o444 by decide,
      Inode.Sealed.writers, fun _ => rfl⟩
  | _ => exact Inode.Evolves.refl i

theorem Run.Does.writers (h : r.Does i stamps ph i' stamps') : i'.writers = i.writers := by
  cases h <;> rfl

theorem Run.Does.isOpen (h : r.Does i stamps ph i' stamps') : r.phase.isOpen := by
  cases h with
  | fail h => exact h
  | setlease _ h | stampWrite _ h => rw [h]; rfl
  | _ h => rw [h]; rfl

theorem take_append_read {content buf : List UInt8} {off n : Nat}
    (hbuf : buf = (content.drop off).take n) :
    content.take off ++ buf = content.take (off + buf.length) := by
  rw [List.take_add, hbuf, List.length_take, ← List.take_eq_take_min]

theorem Run.Does.knows (h : r.Does i stamps ph i' stamps') (hr : r.phase.Knows r.pin i)
    (hst : ∀ l, stamps r.name = some l → l.Vouches i) : ph.Knows r.pin i' := by
  cases h with
  | fstat => exact ⟨rfl, rfl⟩
  | stamped h hm =>
    rw [h] at hr
    exact hst _ hm hr.1 hr.2
  | unstamped | fail => trivial
  | fchown => rfl
  | fchmod h =>
    rw [h] at hr
    exact ⟨hr, show unwritable 0o444 by decide⟩
  | setlease memory h hw =>
    rw [h] at hr
    exact ⟨⟨hr.1, hr.2, hw⟩, absorbed_init memory⟩
  | read h hbuf =>
    rw [h] at hr
    refine ⟨hr.1, ?_⟩
    rw [← take_append_read hbuf]
    exact hr.2.update _
  | matched h hoff hhex =>
    rw [h] at hr
    obtain ⟨hseal, habs⟩ := hr
    rw [List.take_of_length_le hoff] at habs
    exact ⟨hseal, by rw [← habs.imageDigest, hhex]⟩
  | refstat h =>
    rw [h] at hr
    exact ⟨hr, rfl, rfl⟩
  | stampWrite out h =>
    rw [h] at hr
    exact hr.1
  | close h =>
    rw [h] at hr
    exact hr

theorem Run.Does.stamp_cases (h : r.Does i stamps ph i' stamps') (hr : r.phase.Knows r.pin i)
    {name : String} {l : Stamp} (hl : stamps' name = some l) :
    stamps name = some l ∨ (l.dev = i.dev ∧ l.ino = i.ino ∧ i.Pinned l.pin) := by
  cases h with
  | stampWrite out h =>
    rw [h] at hr
    by_cases hname : name = r.name
    · subst hname
      cases out with
      | written =>
        simp only [StampWrite.apply, Function.update_self, Option.some.injEq] at hl
        subst hl
        exact .inr ⟨hr.2.1, hr.2.2, hr.1⟩
      | skipped => exact .inl hl
      | torn => simp [StampWrite.apply] at hl
    · left
      cases out <;> simpa [StampWrite.apply, hname] using hl
  | _ => exact .inl hl

end

structure World.Sound (manifest : List (String × Pin)) (w : World) : Prop where
  live_lt : ∀ id, w.Live id → id < w.count
  numbers : ∀ id id', w.Live id → w.Live id' → (w.inode id).dev = (w.inode id').dev →
    (w.inode id).ino = (w.inode id').ino → id = id'
  fd_lt : ∀ r ∈ w.runs, r.fd < w.count
  pins : ∀ r ∈ w.runs, manifestPin manifest r.name = some r.pin
  runs : ∀ r ∈ w.runs, r.phase.Knows r.pin (w.inode r.fd)
  stamps : ∀ name l, w.stamps name = some l → ∀ id, w.Live id → l.Vouches (w.inode id)

structure World.Initial (w : World) : Prop where
  live_lt : ∀ id, w.Live id → id < w.count
  numbers : ∀ id id', w.Live id → w.Live id' → (w.inode id).dev = (w.inode id').dev →
    (w.inode id).ino = (w.inode id').ino → id = id'
  stamps : ∀ name, w.stamps name = none
  runs : w.runs = []

theorem World.Initial.sound (h : w.Initial) (manifest : List (String × Pin)) : w.Sound manifest :=
  { h with
    fd_lt := by simp [h.runs]
    pins := by simp [h.runs]
    runs := by simp [h.runs]
    stamps := by simp [h.stamps] }

/-- The app does not create a file under a number that a stamp records. -/
def NotRecycled (w : World) : Event → Prop
  | .move (.create _ new) =>
    ∀ name l, w.stamps name = some l → ¬ (l.dev = new.dev ∧ l.ino = new.ino)
  | _ => True

section
variable {w w' : World} {id : Nat}

namespace World

theorem entry_mem {name : String} (h : w.entry name = some id) : ∃ e ∈ w.dir, e.2 = id := by
  obtain ⟨e, he, rfl⟩ := map_eq_some_iff.mp h
  exact ⟨e, List.mem_of_find?_eq_some he, rfl⟩

theorem Live.mono (h : w'.Live id) (hdir : ∀ e ∈ w'.dir, ∃ e' ∈ w.dir, e'.2 = e.2)
    (hw : 0 < (w'.inode id).writers → w.Live id)
    (hruns : ∀ r ∈ w'.runs, r.phase.isOpen → w.Live r.fd) : w.Live id := by
  rcases h with ⟨e, he, rfl⟩ | hwr | ⟨r, hr, rfl, hopen⟩
  · exact .inl (hdir e he)
  · exact hw hwr
  · exact hruns r hr hopen

theorem live_of_writers (h : 0 < (w.inode id).writers) : w.Live id := .inr (.inl h)

theorem live_of_run {r : Run} (hr : r ∈ w.runs) (ho : r.phase.isOpen) : w.Live r.fd :=
  .inr (.inr ⟨r, hr, rfl, ho⟩)

theorem live_of_modify {i : Inode} {id' : Nat} (hi : 0 < i.writers → w.Live id')
    (h : 0 < ((w.modify id' i).inode id).writers) : w.Live id := by
  by_cases hid : id = id'
  · subst hid
    exact hi (by simpa [modify] using h)
  · exact live_of_writers (by simpa [modify, hid] using h)

theorem move_live {m : Move} (h : w.move m = some w') (hl : w'.Live id) :
    w.Live id ∨ ∃ name new, m = .create name new ∧ id = w.count := by
  have same : ∀ e ∈ w.dir, ∃ e' ∈ w.dir, e'.2 = e.2 := fun e he => ⟨e, he, rfl⟩
  have wr : 0 < (w.inode id).writers → w.Live id := live_of_writers
  have old : ∀ r ∈ w.runs, r.phase.isOpen → w.Live r.fd := fun r hr => live_of_run hr
  cases m with
  | create name new =>
    obtain ⟨-, ⟨⟩⟩ := ite_none_right_eq_some.mp h
    by_cases hid : id = w.count
    · exact .inr ⟨name, new, rfl, hid⟩
    · left
      rcases hl with ⟨e, he, rfl⟩ | hwr | ⟨r, hr, rfl, hopen⟩
      · rcases List.mem_cons.mp he with rfl | he
        · exact absurd rfl hid
        · exact .inl ⟨e, List.mem_of_mem_filter he, rfl⟩
      · exact live_of_writers (by simpa [modify, hid] using hwr)
      · exact live_of_run hr hopen
  | rename src dst | link src dst =>
    obtain ⟨id', hsrc, rfl⟩ := map_eq_some_iff.mp h
    refine .inl (hl.mono (fun e he => ?_) wr old)
    rcases List.mem_cons.mp he with rfl | he
    · exact entry_mem hsrc
    · exact ⟨e, List.mem_of_mem_filter he, rfl⟩
  | unlink name =>
    cases h
    exact .inl (hl.mono (fun e he => ⟨e, List.mem_of_mem_filter he, rfl⟩) wr old)
  | chmod id' mode | utimes id' mtime =>
    obtain ⟨-, ⟨⟩⟩ := ite_none_right_eq_some.mp h
    exact .inl (hl.mono same (live_of_modify live_of_writers) old)
  | openWrite id' =>
    obtain ⟨⟨hlive, -⟩, ⟨⟩⟩ := ite_none_right_eq_some.mp h
    exact .inl (hl.mono same (live_of_modify fun _ => hlive) old)
  | write id' content mtime | closeWrite id' =>
    obtain ⟨hw, ⟨⟩⟩ := ite_none_right_eq_some.mp h
    exact .inl (hl.mono same (live_of_modify fun _ => live_of_writers hw) old)

end World

end

section
variable {manifest : List (String × Pin)} {w w' : World}

namespace World

namespace Sound
variable (hs : w.Sound manifest)
include hs

theorem shrink (hcount : w'.count = w.count)
    (hstamps : w'.stamps = w.stamps) (hruns : w'.runs = w.runs)
    (hev : ∀ id < w.count, (w.inode id).Evolves (w'.inode id))
    (hlive : ∀ id, w'.Live id → w.Live id) : w'.Sound manifest where
  live_lt id hl := hcount ▸ hs.live_lt id (hlive id hl)
  numbers id id' hl hl' hd hi := by
    have e := hev id (hs.live_lt id (hlive id hl))
    have e' := hev id' (hs.live_lt id' (hlive id' hl'))
    exact hs.numbers id id' (hlive id hl) (hlive id' hl') (by rw [← e.dev, hd, e'.dev])
      (by rw [← e.ino, hi, e'.ino])
  fd_lt r hr := by
    rw [hcount]
    exact hs.fd_lt r (hruns ▸ hr)
  pins r hr := hs.pins r (hruns ▸ hr)
  runs r hr := by
    rw [hruns] at hr
    exact (hs.runs r hr).evolves (hev _ (hs.fd_lt r hr))
  stamps name l hl id hlv := by
    rw [hstamps] at hl
    exact (hs.stamps name l hl id (hlive id hlv)).evolves (hev id (hs.live_lt id (hlive id hlv)))

theorem create {name : String} {new : Inode}
    (hok : NotRecycled w (.move (.create name new))) (h : w.move (.create name new) = some w') :
    w'.Sound manifest := by
  have hev := fun id (hid : id < w.count) => move_evolves h hid
  have hlive : ∀ id, w'.Live id → w.Live id ∨ id = w.count := fun id hl => by
    rcases move_live h hl with hl | ⟨_, _, -, rfl⟩
    exacts [.inl hl, .inr rfl]
  obtain ⟨⟨-, hfree⟩, ⟨⟩⟩ := ite_none_right_eq_some.mp h
  refine ⟨fun id hl => ?_, fun id id' hl hl' hd hi => ?_, fun r hr => ?_, hs.pins,
    fun r hr => (hs.runs r hr).evolves (hev _ (hs.fd_lt r hr)), fun name' l hl id hlv => ?_⟩
  · rcases hlive id hl with hl | rfl
    · exact Nat.lt_succ_of_lt (hs.live_lt id hl)
    · exact Nat.lt_succ_self _
  · have hold : ∀ id, w.Live id → (w.modify w.count new).inode id = w.inode id := fun id hl => by
      simp [modify, (hs.live_lt id hl).ne]
    have hnew : (w.modify w.count new).inode w.count = new := by simp [modify]
    dsimp only at hd hi
    rcases hlive id hl with hl | rfl <;> rcases hlive id' hl' with hl' | rfl
    · rw [hold id hl, hold id' hl'] at hd hi
      exact hs.numbers id id' hl hl' hd hi
    · rw [hold id hl, hnew] at hd hi
      exact absurd ⟨hd, hi⟩ (hfree id (hs.live_lt id hl) hl)
    · rw [hold id' hl', hnew] at hd hi
      exact absurd ⟨hd.symm, hi.symm⟩ (hfree id' (hs.live_lt id' hl') hl')
    · rfl
  · exact Nat.lt_succ_of_lt (hs.fd_lt r hr)
  · rcases hlive id hlv with hlv | rfl
    · exact (hs.stamps name' l hl id hlv).evolves (hev id (hs.live_lt id hlv))
    · intro hd hi
      simp only [modify, Function.update_self] at hd hi
      exact absurd ⟨hd, hi⟩ (hok name' l hl)

theorem move {m : Move} (hok : NotRecycled w (.move m))
    (h : w.move m = some w') : w'.Sound manifest := by
  have hev := fun id (hid : id < w.count) => move_evolves h hid
  have hlive := fun id (hl : w'.Live id) => move_live h hl
  cases m with
  | create name new => exact hs.create hok h
  | rename src dst | link src dst =>
    obtain ⟨_, -, rfl⟩ := map_eq_some_iff.mp h
    exact hs.shrink rfl rfl rfl hev fun id hl => (hlive id hl).resolve_right (by simp)
  | unlink name =>
    cases h
    exact hs.shrink rfl rfl rfl hev fun id hl => (hlive id hl).resolve_right (by simp)
  | _ =>
    obtain ⟨-, ⟨⟩⟩ := ite_none_right_eq_some.mp h
    exact hs.shrink rfl rfl rfl hev fun id hl => (hlive id hl).resolve_right (by simp)

theorem verify {name : String}
    (h : w.step manifest (.verify name) = some w') : w'.Sound manifest := by
  simp only [step] at h
  split at h
  case h_2 => cases h
  case h_1 _ _ pin id hpin hentry =>
    cases h
    have hlive : w.Live id := .inl (entry_mem hentry)
    have hback : ∀ id', Live { w with runs := w.runs ++ [⟨name, pin, id, .opened⟩] } id' →
        w.Live id' := fun id' hl => by
      refine hl.mono (fun e he => ⟨e, he, rfl⟩) (fun hw => live_of_writers hw) ?_
      refine List.forall_mem_append.mpr ⟨fun r => live_of_run, ?_⟩
      exact List.forall_mem_singleton.mpr fun _ => hlive
    exact {
      live_lt := fun id' hl => hs.live_lt id' (hback id' hl)
      numbers := fun id₁ id₂ h₁ h₂ => hs.numbers id₁ id₂ (hback id₁ h₁) (hback id₂ h₂)
      fd_lt :=
        List.forall_mem_append.mpr ⟨hs.fd_lt, List.forall_mem_singleton.mpr (hs.live_lt id hlive)⟩
      pins := List.forall_mem_append.mpr ⟨hs.pins, List.forall_mem_singleton.mpr hpin⟩
      runs := List.forall_mem_append.mpr ⟨hs.runs, List.forall_mem_singleton.mpr trivial⟩
      stamps := fun name' l hl id' hlv => hs.stamps name' l hl id' (hback id' hlv) }

theorem call {p : Nat} {c : Call}
    (h : w.step manifest (.call p c) = some w') : w'.Sound manifest := by
  simp only [step, bind_eq_some_iff, map_eq_some_iff] at h
  obtain ⟨r, hr, ⟨ph, i, stamps⟩, hexec, rfl⟩ := h
  have hmem : r ∈ w.runs := List.mem_of_getElem? hr
  have hdoes := Run.exec_does hexec
  have hfd : w.Live r.fd := live_of_run hmem hdoes.isOpen
  have hev := modify_evolves hdoes.evolves
  have hself : (w.modify r.fd i).inode r.fd = i := by simp [modify]
  have hset : ∀ {P : Run → Prop}, (∀ x ∈ w.runs, P x) → P { r with phase := ph } →
      ∀ x ∈ w.runs.set p { r with phase := ph }, P x := fun hall hnew x hx => by
    rcases List.mem_or_eq_of_mem_set hx with hx | rfl
    exacts [hall x hx, hnew]
  have hback : ∀ id, Live { w.modify r.fd i with
      stamps := stamps, runs := w.runs.set p { r with phase := ph } } id → w.Live id := fun id hl =>
    hl.mono (fun e he => ⟨e, he, rfl⟩) (live_of_modify fun hw => live_of_writers (hdoes.writers ▸
      hw)) (hset (fun x => live_of_run) fun _ => hfd)
  exact {
    live_lt := fun id hl => hs.live_lt id (hback id hl)
    numbers := fun id id' hl hl' hd hi => hs.numbers id id' (hback id hl) (hback id' hl')
      (by rw [← (hev id).dev, hd, (hev id').dev]) (by rw [← (hev id).ino, hi, (hev id').ino])
    fd_lt := hset hs.fd_lt (hs.fd_lt r hmem)
    pins := hset hs.pins (hs.pins r hmem)
    runs := hset (fun x hx => (hs.runs x hx).evolves (hev x.fd)) (by
      dsimp only
      rw [hself]
      exact hdoes.knows (hs.runs r hmem) fun l hl => hs.stamps r.name l hl r.fd hfd)
    stamps := fun name l hl id hlv => by
      rcases hdoes.stamp_cases (hs.runs r hmem) hl with hold | ⟨hd, hi, hpin⟩
      · exact (hs.stamps name l hold id (hback id hlv)).evolves (hev id)
      · intro hd' hi'
        obtain rfl : id = r.fd := hs.numbers id r.fd (hback id hlv) hfd
          (by rw [← (hev id).dev, ← hd', hd]) (by rw [← (hev id).ino, ← hi', hi])
        exact hpin.evolves (hev r.fd) }

theorem step {e : Event} (hok : NotRecycled w e)
    (h : w.step manifest e = some w') : w'.Sound manifest := by
  cases e with
  | move m => exact hs.move hok h
  | verify name => exact hs.verify h
  | call p c => exact hs.call h

end Sound

theorem count_le_move {m : Move} (h : w.move m = some w') : w.count ≤ w'.count := by
  cases m with
  | create name new =>
    obtain ⟨-, ⟨⟩⟩ := ite_none_right_eq_some.mp h
    exact Nat.le_succ _
  | rename src dst | link src dst =>
    obtain ⟨_, -, rfl⟩ := map_eq_some_iff.mp h
    exact le_rfl
  | unlink name => cases h; exact le_rfl
  | _ =>
    obtain ⟨-, ⟨⟩⟩ := ite_none_right_eq_some.mp h
    exact le_rfl

theorem step_evolves {e : Event} (h : w.step manifest e = some w') {id : Nat}
    (hid : id < w.count) : (w.inode id).Evolves (w'.inode id) ∧ id < w'.count := by
  cases e with
  | move m => exact ⟨move_evolves h hid, hid.trans_le (count_le_move h)⟩
  | verify name =>
    simp only [step] at h
    split at h <;> cases h
    exact ⟨Inode.Evolves.refl _, hid⟩
  | call p c =>
    simp only [step, bind_eq_some_iff, map_eq_some_iff] at h
    obtain ⟨r, -, ⟨ph, i, stamps⟩, hexec, rfl⟩ := h
    exact ⟨modify_evolves (Run.exec_does hexec).evolves id, hid⟩

end World

end

def World.Holds (manifest : List (String × Pin)) (w : World) (r : Run) : Prop :=
  manifestPin manifest r.name = some (imageDigest (w.inode r.fd).content)

/-- **Verified images stay verified**, if no file is created under a number a stamp records: when
`verify_image` returns a descriptor, the inode behind it hashes to the manifest's pin, and from then
on. -/
theorem verified_images_stay_verified {manifest : List (String × Pin)} {w w₁ w₂ : World}
    {es fs : List Event} (hw : w.Initial) (hok : Along (World.step manifest) NotRecycled w es)
    (h₁ : run (World.step manifest) w es = some w₁)
    (h₂ : run (World.step manifest) w₁ fs = some w₂) {r : Run} (hr : r ∈ w₁.runs)
    (hret : r.phase.isReturned) : w₁.Holds manifest r ∧ w₂.Holds manifest r := by
  have hs : w₁.Sound manifest :=
    run_invariant_along (fun _ _ _ hs hok h => World.Sound.step hs hok h) hok h₁ (hw.sound manifest)
  have hpin₁ : (w₁.inode r.fd).Pinned r.pin := by
    have := hs.runs r hr
    cases hph : r.phase <;> simp_all [Phase.isReturned, Phase.Knows]
  have hlater : r.fd < w₂.count ∧ (w₂.inode r.fd).Pinned r.pin :=
    run_invariant (I := fun v => r.fd < v.count ∧
        (v.inode r.fd).Pinned r.pin) (fun v e v' ⟨hlt, hp⟩ h => have hev := World.step_evolves h hlt
        ⟨hev.2, hp.evolves hev.1⟩) h₂ ⟨hs.fd_lt r hr, hpin₁⟩
  constructor
  · rw [World.Holds, hs.pins r hr, hpin₁.digest]
  · rw [World.Holds, hs.pins r hr, hlater.2.digest]

instance (manifest : List (String × Pin)) (w : World) (r : Run) : Decidable (w.Holds manifest r) :=
  inferInstanceAs (Decidable (_ = _))

def oneByte (b : UInt8) : Inode where
  dev := 0
  ino := 7
  regular := true
  uid := 20010044
  mode := 0o644
  mtime := ⟨1700000000, 0⟩
  content := [b]
  writers := 0

def oneByteManifest : List (String × Pin) := [("system.img", imageDigest [0])]

def downloaded : World where
  inode _ := oneByte 0
  count := 1
  dir := [("system.img", 0)]
  stamps _ := none
  runs := []

def toStamp (p : Nat) : List Event :=
  [.verify "system.img", .call p .fstat, .call p .stampMatches]

def toDigest (p : Nat) : List Event :=
  [.call p .fchown, .call p .fchmod, .call p (.setlease (Vector.replicate 64 0)), .call p (.read 1),
    .call p (.read 1)]

def toReturn (p : Nat) : List Event :=
  toStamp p ++ toDigest p ++ [.call p .refstat, .call p (.stampWrite .written)]

theorem downloaded_live (h : downloaded.Live id) : id = 0 := by
  rcases h with ⟨e, he, rfl⟩ | h | ⟨r, hr, -⟩
  · obtain rfl := List.mem_singleton.mp he
    rfl
  · exact absurd h (lt_irrefl 0)
  · exact absurd hr List.not_mem_nil

theorem downloaded_initial : downloaded.Initial where
  live_lt id h := by
    rw [downloaded_live h]
    decide
  numbers id id' h h' _ _ := by rw [downloaded_live h, downloaded_live h']
  stamps _ := rfl
  runs := rfl

theorem verified_image_outlives_its_entry :
    ∃ w₁ w₂, run (World.step oneByteManifest) downloaded (toReturn 0 ++ toStamp 1) = some w₁ ∧
      run (World.step oneByteManifest) w₁
        [.move (.create "system.img" { oneByte 1 with ino := 8 })] = some w₂ ∧
      (w₁.runs.all fun r => r.phase.isReturned) ∧ w₁.runs.length = 2 ∧
      ∀ r ∈ w₁.runs, w₁.Holds oneByteManifest r ∧ w₂.Holds oneByteManifest r := by
  have hruns : (run (World.step oneByteManifest) downloaded (toReturn 0 ++ toStamp 1)).any fun w₁ =>
      (run (World.step oneByteManifest) w₁
        [.move (.create "system.img" { oneByte 1 with ino := 8 })]).isSome &&
      (w₁.runs.all fun r => r.phase.isReturned) && w₁.runs.length == 2 := by
    decide +kernel
  obtain ⟨w₁, h₁, hrest⟩ := (any_eq_true _ _).mp hruns
  simp only [Bool.and_eq_true, beq_iff_eq, isSome_iff_exists] at hrest
  obtain ⟨⟨⟨w₂, h₂⟩, hall⟩, hlen⟩ := hrest
  have hok : Along (World.step oneByteManifest) NotRecycled downloaded (toReturn 0 ++ toStamp 1) :=
    by
    refine along_of_forall (fun e he w => ?_) _
    fin_cases he <;> trivial
  exact ⟨w₁, w₂, h₁, h₂, hall, hlen, fun r hr =>
    verified_images_stay_verified downloaded_initial hok h₁ h₂ hr (List.all_eq_true.mp hall r hr)⟩

/-- A verified image is unlinked, and a new file gets its number and time.  The next run seals that
file and finds its hash wrong; the run after it finds a sealed file and a stamp that matches. -/
def replaceVerified : List Event :=
  toReturn 0 ++ [.call 0 .close, .move (.unlink "system.img"),
    .move (.create "system.img" (oneByte 1))] ++ toStamp 1 ++ toDigest 1 ++ toStamp 2

theorem recycled_number_passes_the_stamp :
    downloaded.Initial ∧
    ∃ w', run (World.step oneByteManifest) downloaded replaceVerified = some w' ∧
      ∃ r ∈ w'.runs, r.phase.isReturned ∧ ¬ w'.Holds oneByteManifest r :=
  ⟨downloaded_initial, exists_of_any (by decide +kernel)⟩

end OniroSoc.Launcher
