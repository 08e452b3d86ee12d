import OniroSoc.Support.Runs

/-!
# Ids of displays and layers

`HdiDisplay::GetIdleId` and `HdiLayer::GetIdleId` are the same code over their own static table.
-/

namespace OniroSoc.Emulator

def invalidId : Nat := 0xffffffff

structure IdTable where
  mIdleId : Nat := 0
  mIdSets : Finset Nat := ∅

namespace IdTable

def search (ids : Finset Nat) (oldIdleId : Nat) : Nat → Nat → Option (Nat × Nat)
  | 0, _ => none
  | n + 1, idleId =>
    if idleId ∈ ids then
      if (idleId + 1) % invalidId = oldIdleId then some (invalidId, (idleId + 1) % invalidId)
      else search ids oldIdleId n ((idleId + 1) % invalidId)
    else some (idleId, idleId)

def getIdleId (t : IdTable) : Option (Nat × IdTable) :=
  (search t.mIdSets t.mIdleId (invalidId + 1) (t.mIdleId % invalidId)).map fun (id, idleId) =>
    (id, ⟨idleId + 1, insert id t.mIdSets⟩)

def erase (t : IdTable) (id : Nat) : IdTable := { t with mIdSets := t.mIdSets.erase id }

variable {t t' : IdTable} {ids : Finset Nat} {old idleId id n : Nat}

theorem search_cases {found : Nat} (h : search ids old n idleId = some (id, found))
    (hlt : idleId < invalidId) : id = invalidId ∨ id < invalidId ∧ id ∉ ids := by
  induction n generalizing idleId with
  | zero => cases h
  | succ n ih =>
    rw [search] at h
    split_ifs at h with htaken hold
    · cases h
      exact .inl rfl
    · exact ih h (Nat.mod_lt _ (by decide))
    · cases h
      exact .inr ⟨hlt, htaken⟩

theorem getIdleId_cases (h : t.getIdleId = some (id, t')) :
    t'.mIdSets = insert id t.mIdSets ∧ (id = invalidId ∨ id < invalidId ∧ id ∉ t.mIdSets) := by
  obtain ⟨⟨found, idleId⟩, hsearch, heq⟩ := Option.map_eq_some_iff.mp h
  cases heq
  exact ⟨rfl, search_cases hsearch (Nat.mod_lt _ (by decide))⟩

theorem search_of_free {k j : Nat} (hj : (old % invalidId + j) % invalidId ∉ ids)
    (hlt : j < invalidId) (hk : k ≤ j) (hn : j - k < n) :
    ∃ id idleId, search ids old n ((old % invalidId + k) % invalidId) = some (id, idleId) ∧
      id ≠ invalidId := by
  induction n generalizing k with
  | zero => exact absurd hn (Nat.not_lt_zero _)
  | succ n ih =>
    have hne : (old % invalidId + k) % invalidId ∈ ids → k ≠ j := by
      rintro htaken rfl
      exact hj htaken
    rw [search]
    split_ifs with htaken hback
    · -- Back at the first id only after all of them.
      have hne := hne htaken
      rw [invalidId] at *
      omega
    · have hne := hne htaken
      rw [Nat.mod_add_mod, Nat.add_assoc]
      exact ih (by omega) (by omega)
    · exact ⟨_, _, rfl, (Nat.mod_lt _ (by decide)).ne⟩

theorem exists_turns (start : Nat) (hid : id < invalidId) :
    ∃ j, j < invalidId ∧ (start % invalidId + j) % invalidId = id := by
  have hstart : start % invalidId < invalidId := Nat.mod_lt _ (by decide)
  refine ⟨(id + invalidId - start % invalidId) % invalidId, Nat.mod_lt _ (by decide), ?_⟩
  rw [Nat.add_mod_mod, Nat.add_sub_cancel' (by omega), Nat.add_mod_right, Nat.mod_eq_of_lt hid]

theorem getIdleId_of_free (hid : id < invalidId) (hfree : id ∉ t.mIdSets) :
    ∃ found t', t.getIdleId = some (found, t') ∧ found ≠ invalidId := by
  obtain ⟨j, hlt, rfl⟩ := exists_turns t.mIdleId hid
  obtain ⟨found, idleId, hsearch, hne⟩ :=
    search_of_free hfree hlt (Nat.zero_le j) (Nat.lt_succ_of_lt hlt)
  rw [Nat.add_zero (t.mIdleId % invalidId), Nat.mod_mod] at hsearch
  refine ⟨found, ⟨idleId + 1, insert found t.mIdSets⟩, ?_, hne⟩
  rw [getIdleId, hsearch, Option.map_some]

end IdTable

open IdTable Support

/-- The live objects of `HdiDisplay` or of `HdiLayer`: the ids of those that were given one, and how
many were not.  Client layers and black layers are not, nor is an object whose `Init` fails. -/
structure Objects where
  table : IdTable
  live : List Nat := []
  unnamed : Nat := 0

namespace Objects

inductive Action where
  | create
  | createUnnamed
  | destroy (id : Nat)
  | destroyUnnamed

/-- An object has `mId` as long as it was given no id: 0 for a layer, the invalid id for a display.
`none` if `GetIdleId` does not return, or there is no such object. -/
def step (mId : Nat) (s : Objects) : Action → Option Objects
  | .create => s.table.getIdleId.map fun (id, table) =>
    if id = invalidId then { s with table, unnamed := s.unnamed + 1 }
    else { s with table, live := id :: s.live }
  | .createUnnamed => some { s with unnamed := s.unnamed + 1 }
  | .destroy id =>
    if id ∈ s.live then some { s with table := s.table.erase id, live := s.live.erase id } else none
  | .destroyUnnamed =>
    if 0 < s.unnamed then some { s with table := s.table.erase mId, unnamed := s.unnamed - 1 }
      else none

structure Exact (s : Objects) : Prop where
  ids : ∀ id, id ∈ s.table.mIdSets ↔ id ∈ s.live
  nodup : s.live.Nodup
  valid : ∀ id ∈ s.live, id < invalidId

structure Unique (s : Objects) : Prop extends Exact s where
  fresh : s.live.length < invalidId →
    ∃ id table, s.table.getIdleId = some (id, table) ∧ id ≠ invalidId ∧ id ∉ s.live

def Room (s : Objects) (a : Action) : Prop := a = .create → s.live.length < invalidId

/-- No live object has the id that is freed with an object that was given none. -/
def Spares (mId : Nat) (s : Objects) (a : Action) : Prop := a = .destroyUnnamed → mId ∉ s.live

variable {s s' : Objects} {a : Action} {mId : Nat}

theorem Exact.unique (h : s.Exact) : s.Unique := by
  refine ⟨h, fun hroom => ?_⟩
  have hcard : s.live.toFinset.card < (Finset.range invalidId).card :=
    (List.toFinset_card_le s.live).trans_lt (by rwa [Finset.card_range])
  obtain ⟨free, hlt, hfree⟩ := Finset.exists_mem_notMem_of_card_lt_card hcard
  rw [List.mem_toFinset, ← h.ids] at hfree
  obtain ⟨id, table, hget, hne⟩ := getIdleId_of_free (Finset.mem_range.mp hlt) hfree
  obtain ⟨-, hid⟩ := getIdleId_cases hget
  exact ⟨id, table, hget, hne, (h.ids id).not.mp (hid.resolve_left hne).2⟩

theorem Exact.step (h : s.Exact) (hroom : s.Room a) (hspares : s.Spares mId a)
    (hs : s.step mId a = some s') : s'.Exact := by
  cases a with
  | create =>
    obtain ⟨id, table, hget, hne, hnew⟩ := h.unique.fresh (hroom rfl)
    simp only [Objects.step, hget, Option.map_some, if_neg hne] at hs
    cases hs
    obtain ⟨hset, hid⟩ := getIdleId_cases hget
    refine ⟨fun other => ?_, h.nodup.cons hnew, ?_⟩
    · simp [hset, h.ids]
    · simpa using ⟨(hid.resolve_left hne).1, h.valid⟩
  | createUnnamed =>
    cases hs
    exact { h with }
  | destroy id =>
    rw [Objects.step] at hs
    split_ifs at hs with hmem
    cases hs
    refine ⟨fun other => ?_, h.nodup.erase id,
      fun other hother => h.valid other (List.mem_of_mem_erase hother)⟩
    simp [IdTable.erase, h.ids, h.nodup.mem_erase_iff]
  | destroyUnnamed =>
    rw [Objects.step] at hs
    split_ifs at hs
    cases hs
    have hfree : mId ∉ s.table.mIdSets := (h.ids mId).not.mpr (hspares rfl)
    exact { h with ids := by simpa [IdTable.erase, Finset.erase_eq_of_notMem hfree] using h.ids }

theorem not_unique_of_not_spares (hspares : ¬ s.Spares mId a) (hs : s.step mId a = some s') :
    ¬ s'.Unique := by
  intro h
  simp only [Spares, Classical.not_imp, not_not] at hspares
  obtain ⟨rfl, hmem⟩ := hspares
  rw [Objects.step] at hs
  split_ifs at hs
  cases hs
  simpa [IdTable.erase] using (h.ids mId).mpr hmem

def initial (mIdleId : Nat) : Objects := { table := ⟨mIdleId, ∅⟩ }

/-- **Ids are unique** while there are enough, and each is freed with the object that has it,
exactly if no object without an id is destroyed while a live one has its `mId`.  That is always so
for displays. -/
theorem ids_unique_iff {mIdleId : Nat} {as : List Action} {s : Objects}
    (hrun : run (step mId) (initial mIdleId) as = some s)
    (hroom : Along (step mId) Room (initial mIdleId) as) :
    (Always (step mId) Unique (initial mIdleId) as ↔
       Along (step mId) (Spares mId) (initial mIdleId) as) ∧
    (mId = invalidId → Always (step mId) Unique (initial mIdleId) as) := by
  have hstart : (initial mIdleId).Exact := ⟨by simp [initial], .nil, nofun⟩
  have hiff := always_iff_along_of_along (fun _ => Exact.unique) (fun _ _ _ => Exact.step)
    (fun _ _ _ _ _ => not_unique_of_not_spares) hrun hroom hstart
  refine ⟨hiff, fun hdisplay => hiff.mpr ?_⟩
  have hspares (s : Objects) (a : Action) (h : s.Exact) : s.Spares mId a :=
    fun _ hmem => (h.valid mId hmem).ne hdisplay
  exact along_of_along (fun s a _ h hroom hs => h.step hroom (hspares s a h) hs)
    (fun s a h _ => hspares s a h) hroom hstart

def layerOfOne : List Action := [.createUnnamed, .create, .destroy 5, .destroyUnnamed]

theorem ids_unique_layerOfOne : Always (step 0) Unique (initial 5) layerOfOne := by
  have hroom : Along (step 0) Room (initial 5) layerOfOne :=
    along_cons nofun rfl <| along_cons (fun _ => by decide) rfl <| along_cons nofun rfl <|
      along_cons nofun rfl trivial
  refine (ids_unique_iff rfl hroom).1.mpr ?_
  exact along_cons nofun rfl <| along_cons nofun rfl <| along_cons nofun rfl <|
    along_cons (fun _ => nofun) rfl trivial

theorem live_id_freed :
    ∃ s s',
      run (step 0) (initial 0) [.createUnnamed, .createUnnamed, .create] = some s ∧ s.live = [0] ∧
      0 ∈ s.table.mIdSets ∧ s.step 0 .destroyUnnamed = some s' ∧ s'.live = [0] ∧
      0 ∉ s'.table.mIdSets :=
  ⟨_, _, rfl, rfl, by decide, rfl, rfl, by decide⟩

end Objects

end OniroSoc.Emulator
