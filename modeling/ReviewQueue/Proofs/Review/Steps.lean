import ReviewQueue.Proofs.Review.Queue

/-!
# What the steps of a review do to its desk

A review is one step after the other, and any of them may stop it. `Reviewer.Leads` says what a step
makes of the desk and of the executor, whether it stops the review or not, and what it returns;
there is a rule for each way of building a step. Questions and answers leave both alone, so that
only the loads, the prompts and the saves remain to be looked at.
-/

namespace ReviewQueue.Reviewer

variable {α β : Type} {P Q : Desk ω → Executor → Prop} {R : α → Prop} {S : β → Prop}

/-- A step that leads from a desk and an executor with `P` to ones with `Q`, and returns what
satisfies `R`. -/
def Leads (P Q : Desk ω → Executor → Prop) (R : α → Prop) (x : ReviewStep ω α) : Prop :=
  ∀ r, P r.desk r.executor →
    Q (x.run.run r).2.desk (x.run.run r).2.executor ∧ ∀ a, (x.run.run r).1 = .ok a → R a

namespace Leads

theorem pure {a : α} (ha : R a) : Leads P P R (Pure.pure a) := fun _ h =>
  ⟨h, fun _ heq => Except.ok.inj heq ▸ ha⟩

theorem throw (stop : ReviewStop) : Leads P P R (MonadExcept.throw stop) := fun _ h =>
  ⟨h, fun _ heq => nomatch heq⟩

theorem fail (e : ReviewError) : Leads P P R (Reviewer.fail e) := throw _

theorem tell (f : Console → Console) : Leads P P (fun _ => True) (Reviewer.tell f) := fun _ h =>
  ⟨h, fun _ _ => trivial⟩

theorem bind {x : ReviewStep ω α} {f : α → ReviewStep ω β} (hx : Leads P Q R x)
    (hf : ∀ a, R a → Leads Q Q S (f a)) : Leads P Q S (x >>= f) := by
  intro r hr
  obtain ⟨hdesk, hresult⟩ := hx r hr
  rw [run_bind]
  rcases hrun : x.run.run r with ⟨_ | a, r'⟩
  · rw [hrun] at hdesk
    exact ⟨hdesk, fun _ heq => nomatch heq⟩
  · rw [hrun] at hdesk hresult
    exact hf a (hresult a rfl) r' hdesk

/-- A look at the state does nothing. -/
theorem get {f : Reviewer ω → ReviewStep ω β} (hf : ∀ r, Leads P Q S (f r)) :
    Leads P Q S (MonadState.get >>= f) := by
  intro r hr
  rw [run_bind]
  exact hf r r hr

theorem mono {R' : α → Prop} {x : ReviewStep ω α} (h : Leads P Q R x) (hR : ∀ a, R a → R' a) :
    Leads P Q R' x := fun r hr =>
  ⟨(h r hr).1, fun a ha => hR a ((h r hr).2 a ha)⟩

theorem ask (question : Terminal → Terminal × Except PromptError α) :
    Leads P P (fun _ => True) (Reviewer.ask (ω := ω) question) := by
  intro r hr
  unfold Reviewer.ask
  simp only [run_bind, run_get, run_set]
  rcases (question r.terminal).2 with (_ | _) | a
  · exact ⟨hr, fun _ _ => trivial⟩
  · exact ⟨hr, fun _ _ => trivial⟩
  · exact ⟨hr, fun _ _ => trivial⟩

end Leads

/-! ## Showing and moving on -/

theorem leads_showAttachments (s : Session) :
    Leads (ω := ω) P P (fun _ => True) (showAttachments s) := by
  refine .get fun r => ?_
  split
  · exact .fail _
  · exact .tell _
  · exact .tell _

theorem leads_showPosition (s : Session) :
    Leads (ω := ω) P P (fun _ => True) (showPosition s) := by
  unfold showPosition
  split
  · exact .tell _
  · split
    · exact .fail _
    · exact .pure trivial
    · exact .tell _

theorem leads_followed (template : String) (path : Option String) :
    Leads (ω := ω) P P (fun _ => True) (followed template path) := by
  unfold followed
  split
  · exact .bind (.tell _) fun _ _ => .throw _
  · exact .bind (.tell _) fun _ _ => .throw _
  · split
    · exact .pure trivial
    · exact .fail _

section Remote

variable [Remote ω]

/-- A session is shown when the background fetches are over. -/
theorem leads_present (hsettle : ∀ d e, P d e → P d.settle e) (s : Session) :
    Leads P P (fun _ => True) (present s) := by
  have hmodify : Leads P P (fun _ => True)
      (modify fun r => { r with desk := r.desk.settle } : ReviewStep ω Unit) := fun r hr =>
    ⟨hsettle r.desk r.executor hr, fun _ _ => trivial⟩
  refine .bind (.tell _) fun _ _ => .bind hmodify fun _ _ =>
    .bind (leads_showAttachments s) fun _ _ => .bind (leads_showPosition s) fun _ _ => ?_
  split
  · exact .tell _
  · exact .pure trivial

end Remote

end ReviewQueue.Reviewer
