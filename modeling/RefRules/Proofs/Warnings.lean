import RefRules.Proofs.Tables
import RefRules.Warnings

/-!
# RefRules — what a warning log keeps

A phase of a log keeps messages as a slot keeps tags: each once, in the order in which they first
came.

Main results:

* `WarningLog.messages_addAll` — the messages of a phase after others were added;
* `WarningLog.mem_messages_addAll_iff`, `WarningLog.nodup_messages_addAll` — none is lost, and none
  stands there twice;
* `WarningLog.messages_renew`, `WarningLog.messages_renew_of_ne` — a phase that is done again keeps the
  new messages alone, and no other phase changes.
-/

namespace RefRules.WarningLog

variable {phase other message : String}

theorem lookup_append (phases : List (String × List String)) :
    (append phase message phases).lookup phase =
      some ((phases.lookup phase).getD [] ++ [message]) := by
  induction phases with
  | nil => simp [append]
  | cons entry phases ih =>
    obtain ⟨name, old⟩ := entry
    by_cases hName : name = phase
    · simp [append, hName]
    · have hNe : (phase == name) = false := beq_false_of_ne (Ne.symm hName)
      simp only [append, if_neg hName, List.lookup_cons, hNe]
      exact ih

/-- Adding a message puts it behind those of its phase, unless it is there. -/
theorem messages_add (l : WarningLog) (phase message : String) :
    (l.add phase message).2.messages phase =
      if (l.messages phase).contains message then l.messages phase
      else l.messages phase ++ [message] := by
  unfold add
  by_cases hOld : (l.messages phase).contains message = true
  · rw [if_pos hOld, if_pos hOld]
  · rw [if_neg hOld, if_neg hOld]
    simp only [messages, lookup_append, Option.getD_some]

/-- A phase keeps messages as tags are kept. -/
theorem messages_addAll (l : WarningLog) (phase : String) (added : List String) :
    (l.addAll phase added).2.messages phase = mergeTags (l.messages phase) added := by
  induction added generalizing l with
  | nil => rfl
  | cons message added ih =>
    show ((l.add phase message).2.addAll phase added).2.messages phase = _
    rw [ih, messages_add]
    rfl

theorem mem_messages_addAll_iff {l : WarningLog} {added : List String} :
    message ∈ (l.addAll phase added).2.messages phase ↔
      message ∈ l.messages phase ∨ message ∈ added := by
  rw [messages_addAll, mem_mergeTags_iff]

theorem nodup_messages_addAll {l : WarningLog} (h : (l.messages phase).Nodup) (added : List String) :
    ((l.addAll phase added).2.messages phase).Nodup := by
  rw [messages_addAll]
  exact nodup_mergeTags h added

/-- A message that was added stands in its phase once. -/
theorem count_messages_addAll {l : WarningLog} {added : List String}
    (h : (l.messages phase).Nodup) (hAdded : message ∈ added) :
    ((l.addAll phase added).2.messages phase).count message = 1 :=
  List.count_eq_one_of_mem (nodup_messages_addAll h added) (mem_messages_addAll_iff.mpr (.inr hAdded))

/-! ## Phases apart -/

theorem lookup_append_of_ne (hOther : other ≠ phase) (phases : List (String × List String)) :
    (append phase message phases).lookup other = phases.lookup other := by
  induction phases with
  | nil => simp [append, List.lookup, beq_false_of_ne hOther]
  | cons entry phases ih =>
    obtain ⟨name, old⟩ := entry
    by_cases hName : name = phase
    · -- the phase of the message is the first one, and the other one lies behind it
      have hNe : (other == name) = false := beq_false_of_ne (hName ▸ hOther)
      simp only [append, if_pos hName, List.lookup_cons, hNe]
    · simp only [append, if_neg hName, List.lookup_cons, ih]

theorem messages_addAll_of_ne (l : WarningLog) (hOther : other ≠ phase) (added : List String) :
    (l.addAll phase added).2.messages other = l.messages other := by
  induction added generalizing l with
  | nil => rfl
  | cons message added ih =>
    show ((l.add phase message).2.addAll phase added).2.messages other = _
    rw [ih]
    unfold add
    split
    · rfl
    · simp only [messages, lookup_append_of_ne hOther]

theorem lookup_filter_ne (phases : List (String × List String)) :
    (phases.filter fun entry => entry.1 != phase).lookup other =
      if other = phase then none else phases.lookup other := by
  induction phases with
  | nil => simp
  | cons entry phases ih =>
    obtain ⟨name, old⟩ := entry
    by_cases hName : name = phase
    · rw [List.filter_cons_of_neg (by simp [hName]), ih]
      split
      · rfl
      · next hOther => rw [List.lookup_cons, beq_false_of_ne (hName ▸ hOther)]
    · rw [List.filter_cons_of_pos (by simpa using hName), List.lookup_cons, List.lookup_cons, ih]
      split
      · next hSame =>
        rw [eq_of_beq hSame, if_neg hName]
      · rfl

theorem messages_reset (l : WarningLog) (phase : String) : (l.reset phase).messages phase = [] := by
  simp only [reset, messages, lookup_filter_ne, if_true, Option.getD_none]

theorem messages_reset_of_ne (l : WarningLog) (hOther : other ≠ phase) :
    (l.reset phase).messages other = l.messages other := by
  simp only [reset, messages, lookup_filter_ne, if_neg hOther]

/-- A phase that is reset first has the messages that it would have in an empty log. -/
theorem messages_renew (l : WarningLog) (phase : String) (added : List String) :
    ((l.reset phase).addAll phase added).2.messages phase =
      (({} : WarningLog).addAll phase added).2.messages phase := by
  rw [messages_addAll, messages_addAll, messages_reset]
  rfl

theorem messages_renew_of_ne (l : WarningLog) (hOther : other ≠ phase) (added : List String) :
    ((l.reset phase).addAll phase added).2.messages other = l.messages other := by
  rw [messages_addAll_of_ne _ hOther, messages_reset_of_ne _ hOther]

end RefRules.WarningLog
