import OniroSoc.Support.Entries

/-!
# Waydroid supervisor — the control file

The app writes what is asked for into a file and the supervisor applies it: `seq`, `run`, and the
values of three `persist` parameters.  The app's `-1` is `none`, the switches are only ever `0` or
`1`, and a `run` other than the three is `on`.
-/

namespace OniroSoc.Supervisor

open Support List

inductive Run where
  | on
  | off
  | restart
deriving DecidableEq, Repr

structure Settings where
  seq : Nat := 0
  run : Run := .on
  (enabled autostart : Option Bool := none)
  idleStop : Option Nat := none
deriving DecidableEq, Repr

def seqKey : List Char := ['s', 'e', 'q']

def runKey : List Char := ['r', 'u', 'n']

def enabledKey : List Char := ['e', 'n', 'a', 'b', 'l', 'e', 'd']

def autostartKey : List Char := ['a', 'u', 't', 'o', 's', 't', 'a', 'r', 't']

def idleStopKey : List Char := ['i', 'd', 'l', 'e', '_', 's', 't', 'o', 'p']

def Run.text : Run → List Char
  | .on => ['o', 'n']
  | .off => ['o', 'f', 'f']
  | .restart => ['r', 'e', 's', 't', 'a', 'r', 't']

def runOf (text : List Char) : Option Run :=
  if text = Run.on.text then some .on
  else if text = Run.off.text then some .off
  else if text = Run.restart.text then some .restart
  else none

def flagText (b : Bool) : List Char := if b then ['1'] else ['0']

def flagOf (text : List Char) : Option Bool :=
  if text = ['1'] then some true else if text = ['0'] then some false else none

def Settings.entries (s : Settings) : List (List Char × List Char) :=
  [(seqKey, Nat.toDigits 10 s.seq), (runKey, s.run.text)] ++ s.enabled.toList.map
    (enabledKey, flagText ·) ++
    s.autostart.toList.map (autostartKey, flagText ·) ++ s.idleStop.toList.map
    (idleStopKey, Nat.toDigits 10 ·)

def Settings.text (s : Settings) : List Char := entriesText s.entries

def Settings.setControl (s : Settings) (e : List Char × List Char) : Settings :=
  if e.1 = seqKey then { s with seq := (natural? e.2).getD s.seq }
  else if e.1 = runKey then { s with run := (runOf e.2).getD s.run }
  else if e.1 = enabledKey then { s with enabled := flagOf e.2 }
  else if e.1 = autostartKey then { s with autostart := flagOf e.2 }
  else if e.1 = idleStopKey then { s with idleStop := natural? e.2 }
  else s

def readControl : Option (List Char) → Settings
  | none => {}
  | some text => ((text.splitOn '\n').dropLast.map readWords).foldl Settings.setControl {}

def flagNum (text : List Char) : Option Bool :=
  (leadingNatural? text).bind fun n => if n = 0 then some false else if n = 1 then some true
    else none

def Settings.setRead (s : Settings) (e : List Char × List Char) : Settings :=
  if e.1 = seqKey then { s with seq := (leadingNatural? e.2).getD 0 }
  else if e.1 = runKey then { s with run := (runOf e.2).getD .on }
  else if e.1 = enabledKey then { s with enabled := flagNum e.2 }
  else if e.1 = autostartKey then { s with autostart := flagNum e.2 }
  else if e.1 = idleStopKey then { s with idleStop := leadingNatural? e.2 }
  else s

def Control.read : Option (List Char) → Settings
  | none => {}
  | some text => ((text.splitOn '\n').filterMap keyValue).foldl Settings.setRead {}

theorem word_runText (r : Run) : Word r.text := by
  cases r <;> exact word_of_all nofun (by decide)

theorem word_flagText (b : Bool) : Word (flagText b) := by
  cases b <;> exact word_of_all nofun (by decide)

theorem Settings.entries_word (s : Settings) : ∀ e ∈ s.entries, Word e.1 ∧ Word e.2 := by
  have hseq : Word seqKey := word_of_all nofun (by decide)
  have hrun : Word runKey := word_of_all nofun (by decide)
  have henabled : Word enabledKey := word_of_all nofun (by decide)
  have hautostart : Word autostartKey := word_of_all nofun (by decide)
  have hidle : Word idleStopKey := word_of_all nofun (by decide)
  simp only [entries, forall_mem_append, forall_mem_cons, forall_mem_map]
  refine ⟨⟨⟨⟨⟨hseq, word_toDigits _⟩, ⟨hrun, word_runText _⟩, nofun⟩, ?_⟩, ?_⟩, ?_⟩
  · exact fun b _ => ⟨henabled, word_flagText b⟩
  · exact fun b _ => ⟨hautostart, word_flagText b⟩
  · exact fun n _ => ⟨hidle, word_toDigits n⟩

theorem Settings.splitOn_text (s : Settings) :
    s.text.splitOn '\n' = s.entries.map entryLine ++ [[]] :=
  splitOn_entriesText s.entries_word

@[simp] theorem runOf_text (r : Run) : runOf r.text = some r := by cases r <;> rfl

@[simp] theorem flagOf_flagText (b : Bool) : flagOf (flagText b) = some b := by cases b <;> rfl

@[simp] theorem flagNum_flagText (b : Bool) : flagNum (flagText b) = some b := by cases b <;> rfl

theorem foldl_setControl_entries (s : Settings) : s.entries.foldl Settings.setControl {} = s := by
  obtain ⟨seq, run, enabled, autostart, idleStop⟩ := s
  cases enabled <;> cases autostart <;> cases idleStop <;>
    simp [Settings.entries, Settings.setControl, seqKey, runKey, enabledKey, autostartKey,
      idleStopKey]

theorem foldl_setRead_entries (s : Settings) : s.entries.foldl Settings.setRead {} = s := by
  obtain ⟨seq, run, enabled, autostart, idleStop⟩ := s
  cases enabled <;> cases autostart <;> cases idleStop <;>
    simp [Settings.entries, Settings.setRead, seqKey, runKey, enabledKey, autostartKey, idleStopKey]

@[simp] theorem readControl_text (s : Settings) : readControl (some s.text) = s := by
  have hwords : (s.entries.map entryLine).map readWords = s.entries := by
    have hread : ∀ e ∈ s.entries, (readWords ∘ entryLine) e = id e := fun e he =>
      readWords_entryLine (s.entries_word e he).1 (s.entries_word e he).2
    rw [map_map, map_congr_left hread, map_id]
  rw [readControl, s.splitOn_text, dropLast_concat, hwords, foldl_setControl_entries]

@[simp] theorem Control.read_text (s : Settings) : Control.read (some s.text) = s := by
  have hkeys : (s.entries.map entryLine ++ [[]]).filterMap keyValue = s.entries := by
    have hread : ∀ e ∈ s.entries, (keyValue ∘ entryLine) e = some e := fun e he =>
      keyValue_entryLine (s.entries_word e he).1 (s.entries_word e he).2
    rw [filterMap_append, filterMap_map, filterMap_congr hread, filterMap_some]
    exact append_nil _
  rw [Control.read, s.splitOn_text, hkeys, foldl_setRead_entries]

end OniroSoc.Supervisor
