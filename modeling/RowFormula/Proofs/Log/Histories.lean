import Mathlib.Data.List.Induction
import RowFormula.Proofs.History.Changes
import RowFormula.Proofs.Log.Recording

/-! A log that starts empty keeps the identities of its entries. Ids are read off the length of
the log and not stored, yet whatever is asked under an id is answered from the history of the calls
alone: the entry with an id is the one that was created as that many, with the outcome of its last
update.
-/

namespace RowFormula

/-- A call that may change a log. -/
inductive LogCall where
  | create (entry : NewLogEntry)
  | update (id : Nat) (completion : LogCompletion)

namespace LogCall

/-- The entry that a call creates. -/
def created? : LogCall → Option NewLogEntry
  | create entry => some entry
  | update .. => none

/-- The completion that a call has for the entry with an id. -/
def completion? (id : Nat) : LogCall → Option LogCompletion
  | create _ => none
  | update other completion => if other = id then some completion else none

end LogCall

namespace ExecutionLog

/-- What a call makes of a log, or why it fails. -/
def change (log : ExecutionLog) : LogCall → Except EntryNotFound ExecutionLog
  | .create entry => .ok (log.create entry).2
  | .update id completion => log.update id completion

/-- The log that calls leave which are made one after another on an empty log. -/
def ofHistory (history : List LogCall) : ExecutionLog :=
  Changes.after change .empty history

end ExecutionLog

namespace LogHistory

/-- The entries that were created, oldest first. -/
def created (history : List LogCall) : List NewLogEntry :=
  history.filterMap LogCall.created?

/-- The entry that was created as that many. -/
def nthCreated? (history : List LogCall) : Nat → Option NewLogEntry
  | 0 => none
  | n + 1 => (created history)[n]?

/-- The completion of the last update of an entry that succeeded. -/
def lastCompletion? (history : List LogCall) (id : Nat) : Option LogCompletion :=
  ((Changes.successes ExecutionLog.change .empty history).filterMap (·.completion? id)).getLast?

/-- The entry with an id as a history leaves it: what it was created with, and the outcome of the
last update, if there was one.
-/
def entryAfter (history : List LogCall) (id : Nat) (entry : NewLogEntry) : LogEntry :=
  let last := lastCompletion? history id
  { id, entry
    result := last.bind (·.result)
    error := last.bind (·.error)
    duration := last.map (·.duration) }

/-- What a history says about the log that it leaves. -/
structure Describes (history : List LogCall) (log : ExecutionLog) : Prop where
  /-- Ids are given out in order, from 1 on. -/
  create : ∀ entry, (log.create entry).1 = (created history).length + 1
  get : ∀ id, log.get? id = (nthCreated? history id).map (entryAfter history id)
  /-- Only entries that were created before can be updated. -/
  update_error
    : ∀ id completion cause,
        log.update id completion = .error cause
        ↔ nthCreated? history id = none ∧ cause = ⟨id⟩
  /-- Entries are listed by their ids, none of which is left out. -/
  ids : log.entries.map (·.id) = List.range' 1 (created history).length

end LogHistory

open LogHistory

namespace ExecutionLog

-----------------------------------------------------------------------------------------
-- One call
-----------------------------------------------------------------------------------------

/-- A new entry is found under the next id, and every other entry as before. -/
theorem get?_create (log : ExecutionLog) (entry : NewLogEntry) (id : Nat)
    : (log.create entry).2.get? id
      = if id = log.entries.length + 1 then some { id, entry } else log.get? id := by
  have entries
      : (log.create entry).2.entries
        = log.entries ++ [{ id := log.entries.length + 1, entry }] := rfl
  rw [get?, entries, List.find?_append]
  split
  · next same =>
      have absent : log.entries.find? (·.id == id) = none := by
        rw [List.find?_eq_none]
        intro e member
        simpa [same] using id_ne_next member
      rw [absent, same]
      simp
  · next other => simp [get?, Ne.symm other]

/-- The entry with the id of an update is found completed, and every other entry as before. -/
theorem get?_complete (log : ExecutionLog) (id other : Nat) (c : LogCompletion)
    : (log.complete id c).get? other = (log.get? other).map (·.completedAt id c) := by
  have kept : (fun e : LogEntry => e.id == other) ∘ LogEntry.completedAt id c
      = fun e => e.id == other := by
    funext e
    simp only [Function.comp, LogEntry.completedAt]
    split <;> rfl
  rw [get?, entries_complete, List.find?_map, kept]
  rfl

theorem complete_of_absent {log : ExecutionLog} {id : Nat} (absent : ∀ e ∈ log.entries, e.id ≠ id)
    (c : LogCompletion)
    : log.complete id c = log := by
  ext1
  rw [entries_complete, LogEntry.map_completedAt_of_ne absent]

-----------------------------------------------------------------------------------------
-- One more call at the end of a history
-----------------------------------------------------------------------------------------

theorem ofHistory_create (history : List LogCall) (entry : NewLogEntry)
    : ofHistory (history ++ [.create entry]) = ((ofHistory history).create entry).2 :=
  Changes.after_of_ok rfl

/-- Whether an update succeeds or fails, it completes the entry with the id if there is one. -/
theorem ofHistory_update (history : List LogCall) (id : Nat) (c : LogCompletion)
    : ofHistory (history ++ [.update id c]) = (ofHistory history).complete id c := by
  cases made : (ofHistory history).update id c with
  | ok after =>
      rw [← update_eq_ok made]
      exact Changes.after_of_ok made
  | error cause =>
      have absent := (update_eq_error_iff.mp made).1
      rw [complete_of_absent absent]
      exact Changes.after_of_error made

end ExecutionLog

namespace LogHistory

theorem created_concat (history : List LogCall) (call : LogCall)
    : created (history ++ [call]) = created history ++ call.created?.toList := by
  rw [created, List.filterMap_append]
  cases call <;> rfl

theorem nthCreated?_create (history : List LogCall) (entry : NewLogEntry) (id : Nat)
    : nthCreated? (history ++ [.create entry]) id
      = if id = (created history).length + 1 then some entry else nthCreated? history id := by
  cases id with
  | zero => rfl
  | succ n =>
      have more : created (history ++ [.create entry]) = created history ++ [entry] :=
        created_concat history _
      rw [nthCreated?, nthCreated?, more]
      grind

theorem nthCreated?_update (history : List LogCall) (id other : Nat) (c : LogCompletion)
    : nthCreated? (history ++ [.update id c]) other = nthCreated? history other := by
  cases other with
  | zero => rfl
  | succ n =>
      rw [nthCreated?, nthCreated?, created_concat]
      exact congrArg (·[n]?) (List.append_nil _)

/-- Entries were created under the ids from 1 on. -/
theorem nthCreated?_eq_none_iff {history : List LogCall} {id : Nat}
    : nthCreated? history id = none ↔ id ∉ List.range' 1 (created history).length := by
  rw [List.mem_range'_1]
  cases id with
  | zero => simp [nthCreated?]
  | succ n =>
      rw [nthCreated?, List.getElem?_eq_none_iff]
      omega

theorem lastCompletion?_create (history : List LogCall) (entry : NewLogEntry) (id : Nat)
    : lastCompletion? (history ++ [.create entry]) id = lastCompletion? history id := by
  rw [lastCompletion?, Changes.successes_of_ok rfl, List.filterMap_append]
  exact congrArg List.getLast? (List.append_nil _)

theorem lastCompletion?_of_ok {history : List LogCall} {id : Nat} {c : LogCompletion}
    {after : ExecutionLog} (made : (ExecutionLog.ofHistory history).update id c = .ok after)
    (other : Nat)
    : lastCompletion? (history ++ [.update id c]) other
      = if id = other then some c else lastCompletion? history other := by
  rw [lastCompletion?, Changes.successes_of_ok made, List.filterMap_append, List.getLast?_append]
  by_cases same : id = other <;> simp [same, lastCompletion?, LogCall.completion?]

theorem lastCompletion?_of_error {history : List LogCall} {id : Nat} {c : LogCompletion}
    {cause : EntryNotFound} (failed : (ExecutionLog.ofHistory history).update id c = .error cause)
    (other : Nat)
    : lastCompletion? (history ++ [.update id c]) other = lastCompletion? history other := by
  rw [lastCompletion?, Changes.successes_of_error failed]
  rfl

end LogHistory

-----------------------------------------------------------------------------------------
-- Whole histories
-----------------------------------------------------------------------------------------

namespace ExecutionLog

theorem length_ofHistory (history : List LogCall)
    : (ofHistory history).entries.length = (created history).length := by
  induction history using List.reverseRecOn with
  | nil => rfl
  | append_singleton history call ih =>
      rw [created_concat, List.length_append]
      cases call with
      | create entry =>
          rw [ofHistory_create, ← ih]
          exact List.length_append
      | update id c =>
          rw [ofHistory_update, entries_complete, List.length_map, ih]
          rfl

theorem ids_ofHistory (history : List LogCall)
    : (ofHistory history).entries.map (·.id) = List.range' 1 (created history).length := by
  rw [(ofHistory history).numbered, length_ofHistory]

/-- An update fails exactly where no entry was created under its id. -/
theorem update_ofHistory_eq_error_iff {history : List LogCall} {id : Nat} {c : LogCompletion}
    {cause : EntryNotFound}
    : (ofHistory history).update id c = .error cause
      ↔ nthCreated? history id = none ∧ cause = ⟨id⟩ := by
  rw [update_eq_error_iff, nthCreated?_eq_none_iff, ← ids_ofHistory, List.mem_map]
  simp only [not_exists, not_and]

end ExecutionLog

/-- What was not created was not updated either, by induction on the calls. -/
theorem LogHistory.lastCompletion?_of_not_created {history : List LogCall} {id : Nat}
    (absent : nthCreated? history id = none)
    : lastCompletion? history id = none := by
  induction history using List.reverseRecOn with
  | nil => rfl
  | append_singleton history call ih =>
      cases call with
      | create entry =>
          rw [nthCreated?_create] at absent
          rw [lastCompletion?_create]
          split at absent
          · cases absent
          · exact ih absent
      | update other c =>
          rw [nthCreated?_update] at absent
          cases made : (ExecutionLog.ofHistory history).update other c with
          | error cause => rw [lastCompletion?_of_error made, ih absent]
          | ok after =>
              have apart : other ≠ id := by
                rintro rfl
                rw [ExecutionLog.update_ofHistory_eq_error_iff.mpr ⟨absent, rfl⟩] at made
                cases made
              rw [lastCompletion?_of_ok made, if_neg apart, ih absent]

theorem LogHistory.entryAfter_create (history : List LogCall) (entry : NewLogEntry) (id : Nat)
    : entryAfter (history ++ [.create entry]) id = entryAfter history id := by
  funext other
  rw [entryAfter, lastCompletion?_create]
  rfl

theorem LogHistory.entryAfter_of_not_created {history : List LogCall} {id : Nat}
    (absent : nthCreated? history id = none) (entry : NewLogEntry)
    : entryAfter history id entry = { id, entry } := by
  rw [entryAfter, lastCompletion?_of_not_created absent]
  rfl

/-- An entry that was created is completed by an update with its id, and by no other. -/
theorem LogHistory.entryAfter_update {history : List LogCall} {id : Nat} {entry : NewLogEntry}
    (found : nthCreated? history id = some entry) (other : Nat) (c : LogCompletion)
    : entryAfter (history ++ [.update other c]) id entry
      = (entryAfter history id entry).completedAt other c := by
  cases made : (ExecutionLog.ofHistory history).update other c with
  | ok after =>
      rw [entryAfter, lastCompletion?_of_ok made]
      by_cases same : other = id
      · have ours : (entryAfter history id entry).id = other := same.symm
        rw [if_pos same, LogEntry.completedAt, if_pos ours]
        rfl
      · rw [if_neg same, LogEntry.completedAt_of_ne (Ne.symm same)]
        rfl
  | error cause =>
      have apart : id ≠ other := by
        rintro rfl
        rw [(ExecutionLog.update_ofHistory_eq_error_iff.mp made).1] at found
        cases found
      rw [entryAfter, lastCompletion?_of_error made, LogEntry.completedAt_of_ne apart]
      rfl

namespace ExecutionLog

/-- Under an id stands the entry that was created as that many, with the outcome of its last
update, by induction on the calls.
-/
theorem get?_ofHistory (history : List LogCall) (id : Nat)
    : (ofHistory history).get? id = (nthCreated? history id).map (entryAfter history id) := by
  induction history using List.reverseRecOn with
  | nil => cases id <;> rfl
  | append_singleton history call ih =>
      cases call with
      | create entry =>
          rw [ofHistory_create, get?_create, length_ofHistory, nthCreated?_create,
            entryAfter_create, ih]
          split
          · next new =>
              have absent : nthCreated? history id = none := by
                rw [nthCreated?_eq_none_iff, List.mem_range'_1]
                omega
              rw [Option.map_some, entryAfter_of_not_created absent]
          · rfl
      | update other c =>
          rw [ofHistory_update, get?_complete, nthCreated?_update, ih]
          cases found : nthCreated? history id with
          | none => rfl
          | some entry => simp only [Option.map_some, entryAfter_update found]

theorem describes_ofHistory (history : List LogCall)
    : Describes history (ofHistory history) where
  create _ := congrArg (· + 1) (length_ofHistory history)
  get := get?_ofHistory history
  update_error _ _ _ := update_ofHistory_eq_error_iff
  ids := ids_ofHistory history

end ExecutionLog

/-- A log keeps the identities of its entries. What it answers is told by the calls that were made:
the entry that was created as that many has that id, keeps what it was created with and has the
outcome of the last update of it that succeeded. Updates fail where no entry was created under the
id, and change no entry but the one with the id.
-/
theorem log_keeps_identities (history : List LogCall)
    : Describes history (.ofHistory history)
      ∧ ∀ id completion,
          let updated := ExecutionLog.ofHistory (history ++ [.update id completion])
          updated.entries
            = (ExecutionLog.ofHistory history).entries.map
                (fun e => if e.id = id then e.completed completion else e)
          ∧ (nthCreated? history id = none → updated = .ofHistory history) := by
  refine ⟨ExecutionLog.describes_ofHistory history, fun id completion => ?_⟩
  intro updated
  have made : updated = (ExecutionLog.ofHistory history).complete id completion :=
    ExecutionLog.ofHistory_update history id completion
  rw [made]
  refine ⟨ExecutionLog.entries_complete _ id completion, fun absent => ?_⟩
  have failed : (ExecutionLog.ofHistory history).update id completion = .error ⟨id⟩ :=
    ExecutionLog.update_ofHistory_eq_error_iff.mpr ⟨absent, rfl⟩
  exact ExecutionLog.complete_of_absent (ExecutionLog.update_eq_error_iff.mp failed).1 completion

/-- An update comes too early, and the entry that is created then is updated twice. -/
theorem log_keeps_identities_early
    : let entry : NewLogEntry :=
        { formulaId := "f", context := {}, expression := "", components := [], rowIds := [] }
      let early : LogCompletion := { duration := 1, result := some .null, error := none }
      let failed : LogCompletion := { duration := 2, result := none, error := some "unset" }
      let history : List LogCall :=
        [.update 1 early, .create entry, .update 1 early, .update 1 failed, .update 2 early]
      let log := ExecutionLog.ofHistory history
      log.get? 1 = some { id := 1, entry, error := some "unset", duration := some 2 }
      ∧ (log.create entry).1 = 2
      ∧ nthCreated? history 2 = none
      ∧ log.update 2 early = .error ⟨2⟩
      ∧ ExecutionLog.ofHistory (history ++ [.update 2 early]) = log := by
  intro entry early failed history log
  obtain ⟨described, updating⟩ := log_keeps_identities history
  refine ⟨?_, ?_, rfl, ?_, ?_⟩
  · exact (described.get 1).trans rfl
  · exact (described.create entry).trans rfl
  · exact (described.update_error 2 early ⟨2⟩).mpr ⟨rfl, rfl⟩
  · exact (updating 2 early).2 rfl

end RowFormula
