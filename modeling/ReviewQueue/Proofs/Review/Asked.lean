import ReviewQueue.Proofs.Review.Steps
import ReviewQueue.Proofs.Review.Verdict

/-!
# Asking for a verdict

The prompts for a verdict fetch the verdicts to choose from, and put the answers into the form. They
change nothing else of the session, and neither do a verdict that is given beforehand and a draft.

* `Reviewer.formOf_given` — a verdict that is given beforehand;
* `Reviewer.leads_promptVerdict` — a verdict that is asked for.
-/

namespace ReviewQueue.Reviewer

variable {P : Desk ω → Executor → Prop}

theorem leads_askStatus (title : String) (options : List Status) (current : Status) :
    Leads (ω := ω) P P (fun _ => True) (askStatus title options current) :=
  .bind (.ask _) fun _ _ => .pure trivial

theorem leads_askStatuses (options : List Status) (parts : List Part) (statuses : List Status) :
    Leads (ω := ω) P P (fun _ => True) (askStatuses options parts statuses) := by
  induction parts generalizing statuses with
  | nil => exact .pure trivial
  | cons p parts ih =>
      cases statuses with
      | nil => exact .pure trivial
      | cons st rest =>
          exact .bind (leads_askStatus _ _ _) fun _ _ => .bind (ih rest) fun _ _ => .pure trivial

theorem leads_askFeedbacks (parts : List Part) (statuses : List Status) (feedbacks : List String) :
    Leads (ω := ω) P P (fun _ => True) (askFeedbacks parts statuses feedbacks) := by
  induction parts generalizing statuses feedbacks with
  | nil => exact .pure trivial
  | cons p parts ih =>
      cases statuses with
      | nil => exact .pure trivial
      | cons st statuses =>
          cases feedbacks with
          | nil => exact .pure trivial
          | cons f rest =>
              exact .bind (.ask _) fun _ _ => .bind (ih statuses rest) fun _ _ => .pure trivial

/-- A session that differs from another one in its form at most. -/
def FormOf (s t : Session) : Prop := ∃ form, t = { s with form }

theorem FormOf.trans {s t u : Session} (h : FormOf s t) (h' : FormOf t u) : FormOf s u := by
  obtain ⟨_, rfl⟩ := h
  obtain ⟨form, rfl⟩ := h'
  exact ⟨form, rfl⟩

/-- Neither a verdict that is given beforehand nor a draft changes anything but the form. -/
theorem formOf_given {request : ReviewRequest} {drafter : Option Drafter} {s given : Session}
    (h : applyVerdict request s >>= draftMissing drafter = .ok given) : FormOf s given := by
  cases happlied : applyVerdict request s with
  | error e =>
      rw [happlied] at h
      cases h
  | ok applied =>
      rw [happlied] at h
      obtain ⟨-, rfl⟩ := (applyVerdict_eq_ok_iff _ _ _).mp happlied
      obtain ⟨form, rfl, -⟩ := draftMissing_eq_ok h
      exact ⟨form, rfl⟩

theorem leads_askVerdicts (options : List Status) (s : Session) :
    Leads (ω := ω) P P (FormOf s) (askVerdicts options s) := by
  unfold askVerdicts
  split
  · exact .bind (leads_askStatus _ _ _) fun _ _ => .pure ⟨_, rfl⟩
  · exact .bind (leads_askStatuses _ _ _) fun _ _ => .pure ⟨_, rfl⟩

theorem leads_askFeedback (s : Session) :
    Leads (ω := ω) P P (FormOf s) (askFeedback s) := by
  unfold askFeedback
  split
  · exact .bind (.ask _) fun _ _ => .pure ⟨_, rfl⟩
  · exact .bind (leads_askFeedbacks _ _ _) fun _ _ => .pure ⟨_, rfl⟩

section Remote

variable [Remote ω] {s : Session}

theorem desk_statusOptions (s : Session) (d : Desk ω) :
    (s.statusOptions d).1 = (d.get Endpoint.statuses).1 := by
  unfold Session.statusOptions
  split
  rename_i heq
  rw [heq]
  split
  · rfl
  · split <;> rfl

/-- The verdicts to choose from are fetched, and nothing but the form of the session changes. -/
theorem leads_promptVerdict (hget : ∀ d e, P d e → P (d.get Endpoint.statuses).1 e)
    (drafter : Option Drafter) (s : Session) :
    Leads P P (FormOf s) (promptVerdict drafter s) := by
  intro r hr
  have hdesk : P (s.statusOptions r.desk).1 r.executor :=
    desk_statusOptions s r.desk ▸ hget r.desk r.executor hr
  unfold promptVerdict
  simp only [run_bind, run_get, run_set]
  cases (s.statusOptions r.desk).2 with
  | error e => exact ⟨hdesk, fun _ heq => nomatch heq⟩
  | ok options =>
      refine Leads.bind (leads_askVerdicts (P := P) (options.map StatusOption.label) s)
        (fun t ht => ?_) { r with desk := (s.statusOptions r.desk).1 } hdesk
      have hask : ∀ u, FormOf s u → Leads P P (FormOf s) (askFeedback (ω := ω) u) := fun u hu =>
        (leads_askFeedback u).mono fun _ => hu.trans
      split
      · rename_i u hdraft
        obtain ⟨form, hform, -⟩ := draftMissing_eq_ok hdraft
        exact .bind (.pure (ht.trans ⟨form, hform⟩)) hask
      · exact .bind (R := fun _ => False) (.fail _) fun _ => False.elim
      · exact .bind (.tell _) fun _ _ => .bind (.pure ht) hask

end Remote

end ReviewQueue.Reviewer
