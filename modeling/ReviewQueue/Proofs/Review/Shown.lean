import ReviewQueue.Proofs.Review.Queue

/-!
# Sessions that can be shown

A session is shown with its attachments and with its place among its siblings. Both lists come from
outside, and either may have a gap where an item is needed. `Session.Lacks` says of a session that
it has such a gap, and it is shown exactly when it has none.

* `Session.attachments_eq_error_iff`, `Reviewer.position?_eq_error_iff` — what either list lacks;
* `Reviewer.exists_present`, `Reviewer.present_crashes` — which sessions are shown.
-/

namespace ReviewQueue

theorem Buckets.allPresent_eq_error_iff {α : Type} (items : List (Option α)) :
    (∃ e, allPresent items = .error e) ↔ none ∈ items := by
  induction items with
  | nil => simp [allPresent]
  | cons item rest ih =>
      cases item with
      | none => exact ⟨fun _ => List.mem_cons_self, fun _ => ⟨{}, rfl⟩⟩
      | some a =>
          rw [allPresent, List.mem_cons, ← ih]
          cases allPresent rest <;> simp [Except.map]

namespace Session

/-- A session with a gap: an attachment is missing in the list that was fetched, or a sibling before
the first one with the id of the submission. -/
inductive Lacks (s : Session) (c : Cache) : Prop
  | attachment {text : String} {items : List (Option Attachment)}
      (loaded : (c.peek s.attachmentsPath).loading = false)
      (data : (c.peek s.attachmentsPath).data = some text)
      (read : Json.decode? none Attachment.fillAll text.toList = some (some items))
      (missing : none ∈ items)
  | sibling {before after : List (Option Summary)} (found : s.siblingsError = none)
      (split : s.siblings = before ++ none :: after)
      (first : ∀ entry ∈ before, entry.map Summary.id ≠ some s.submission.id)

theorem attachments_eq_error_iff (s : Session) (c : Cache) :
    (∃ e, s.attachments c = .error e) ↔
      ∃ text items, (c.peek s.attachmentsPath).loading = false ∧
        (c.peek s.attachmentsPath).data = some text ∧
        Json.decode? none Attachment.fillAll text.toList = some (some items) ∧ none ∈ items := by
  unfold attachments
  simp only
  cases (c.peek s.attachmentsPath).loading with
  | true => simp
  | false =>
      cases (c.peek s.attachmentsPath).data with
      | none => simp
      | some text =>
          cases hread : Json.decode? none Attachment.fillAll text.toList with
          | none => simp [hread]
          | some items =>
              have hbuckets (list : List (Option Attachment)) :
                  (∃ e, (Buckets.ofList (some list)).map (fun b => (b, (none : Option LoadError))) =
                    .error e) ↔ none ∈ list := by
                rw [← Buckets.allPresent_eq_error_iff, Buckets.ofList]
                cases Buckets.allPresent list <;> simp [Except.map]
              simp only [hread, hbuckets]
              cases items with
              | none => simp [hread]
              | some items => simp [hread]

end Session

namespace Reviewer

theorem position?_eq_error_iff (id : Int) (n : Nat) (siblings : List (Option Summary)) :
    (∃ e, position? id n siblings = .error e) ↔
      ∃ before after, siblings = before ++ none :: after ∧
        ∀ entry ∈ before, entry.map Summary.id ≠ some id := by
  induction siblings generalizing n with
  | nil => simp [position?]
  | cons entry rest ih =>
      cases entry with
      | none => exact ⟨fun _ => ⟨[], rest, rfl, by simp⟩, fun _ => ⟨{}, rfl⟩⟩
      | some x =>
          by_cases hid : x.id = id
          · simp only [position?, hid, if_true, reduceCtorEq, exists_false, false_iff]
            -- the submission is found here, so a gap in front of it would have to come before this
            rintro ⟨before, after, hsplit, hfirst⟩
            cases before with
            | nil => cases hsplit
            | cons y before =>
                obtain ⟨rfl, -⟩ := List.cons.inj hsplit
                exact hfirst _ List.mem_cons_self (congrArg some hid)
          · rw [position?, if_neg hid, ih]
            -- the search goes on behind this sibling, which has another id
            constructor
            · rintro ⟨before, after, rfl, hfirst⟩
              exact ⟨some x :: before, after, rfl,
                List.forall_mem_cons.mpr ⟨fun h => hid (Option.some.inj h), hfirst⟩⟩
            · rintro ⟨before, after, hsplit, hfirst⟩
              cases before with
              | nil => cases hsplit
              | cons y before =>
                  obtain ⟨-, rfl⟩ := List.cons.inj hsplit
                  exact ⟨before, after, rfl, (List.forall_mem_cons.mp hfirst).2⟩

/-- What a session lacks keeps its attachments or its place from being found. -/
theorem lacks_iff (s : Session) (c : Cache) :
    s.Lacks c ↔ (∃ e, s.attachments c = .error e) ∨
      s.siblingsError = none ∧ ∃ e, position? s.submission.id 1 s.siblings = .error e := by
  rw [Session.attachments_eq_error_iff, position?_eq_error_iff]
  constructor
  · rintro (⟨loaded, data, read, missing⟩ | ⟨found, split, first⟩)
    · exact .inl ⟨_, _, loaded, data, read, missing⟩
    · exact .inr ⟨found, _, _, split, first⟩
  · rintro (⟨_, _, loaded, data, read, missing⟩ | ⟨found, _, _, split, first⟩)
    · exact .attachment loaded data read missing
    · exact .sibling found split first

instance {ε α : Type} : (x : Except ε α) → Decidable (∃ e, x = .error e)
  | .error e => isTrue ⟨e, rfl⟩
  | .ok _ => isFalse fun ⟨_, h⟩ => nomatch h

instance (s : Session) (c : Cache) : Decidable (s.Lacks c) := decidable_of_iff' _ (lacks_iff s c)

variable {s : Session} {r : Reviewer ω}

theorem exists_showAttachments {shown : Buckets × Option LoadError}
    (h : s.attachments r.desk.cache = .ok shown) :
    ∃ r', (showAttachments s).run.run r = (.ok (), r') := by
  unfold showAttachments
  simp only [run_bind, run_get, h]
  obtain ⟨buckets, _ | e⟩ := shown <;> exact ⟨_, rfl⟩

theorem showAttachments_crashes {e : MissingItem} (h : s.attachments r.desk.cache = .error e) :
    (showAttachments s).run.run r = (.error (.failed .crash), r) := by
  unfold showAttachments
  simp only [run_bind, run_get, h]
  rfl

theorem exists_showPosition
    (h : s.siblingsError = none → ∃ n, position? s.submission.id 1 s.siblings = .ok n) :
    ∃ r', (showPosition s).run.run r = (.ok (), r') := by
  unfold showPosition
  cases herror : s.siblingsError with
  | some e => exact ⟨_, rfl⟩
  | none =>
      obtain ⟨n, hn⟩ := h herror
      simp only [hn]
      cases n <;> exact ⟨_, rfl⟩

theorem showPosition_crashes (herror : s.siblingsError = none) {e : MissingItem}
    (h : position? s.submission.id 1 s.siblings = .error e) :
    (showPosition s).run.run r = (.error (.failed .crash), r) := by
  unfold showPosition
  simp only [herror, h]
  rfl

section Present

variable [Remote ω]

/-- The reviewer when the attachments are about to be shown. -/
def toldOf (s : Session) (r : Reviewer ω) : Reviewer ω :=
  { r with
    terminal := r.terminal.tell (·.showSubmission s.submission)
    desk := r.desk.settle }

/-- A session is shown when it lacks nothing. -/
theorem exists_present (h : ¬ s.Lacks r.desk.settle.cache) :
    ∃ r', (present s).run.run r = (.ok (), r') := by
  rw [lacks_iff, not_or] at h
  obtain ⟨hattachments, hposition⟩ := h
  obtain ⟨shown, hshown⟩ : ∃ shown, s.attachments r.desk.settle.cache = .ok shown := by
    cases heq : s.attachments r.desk.settle.cache with
    | ok shown => exact ⟨shown, rfl⟩
    | error e => exact absurd ⟨e, heq⟩ hattachments
  obtain ⟨r₁, hfirst⟩ := exists_showAttachments (r := toldOf s r) hshown
  obtain ⟨r₂, hsecond⟩ := exists_showPosition (s := s) (r := r₁) fun herror => by
    cases heq : position? s.submission.id 1 s.siblings with
    | ok n => exact ⟨n, rfl⟩
    | error e => exact absurd ⟨herror, e, heq⟩ hposition
  have hpresent : (present s).run.run r =
      (if s.readOnly then
        tell fun c => c.info ("Already " ++ c.status s.submission.status.label ++
          "; opened read-only.") else Pure.pure () : ReviewStep ω Unit).run.run r₂ := by
    show (showAttachments s >>= fun _ => showPosition s >>= fun _ => _).run.run (toldOf s r) = _
    rw [run_bind, hfirst]
    show (showPosition s >>= _).run.run r₁ = _
    rw [run_bind, hsecond]
  rw [hpresent]
  split <;> exact ⟨_, rfl⟩

/-- A session that lacks something stops the review. -/
theorem present_crashes (h : s.Lacks r.desk.settle.cache) :
    ((present s).run.run r).1 = .error (.failed .crash) := by
  show ((showAttachments s >>= fun _ => showPosition s >>= fun _ => _).run.run (toldOf s r)).1 = _
  rw [run_bind]
  cases hattachments : s.attachments r.desk.settle.cache with
  | error e => rw [showAttachments_crashes (r := toldOf s r) hattachments]
  | ok shown =>
      obtain ⟨r₁, hfirst⟩ := exists_showAttachments (r := toldOf s r) hattachments
      rw [hfirst]
      -- the attachments could be shown, so it is a sibling that is missing
      obtain ⟨e, he⟩ | ⟨herror, e, hposition⟩ := (lacks_iff _ _).mp h
      · cases hattachments.symm.trans he
      · show ((showPosition s >>= fun _ => _).run.run r₁).1 = _
        rw [run_bind, showPosition_crashes herror hposition]

end Present

end Reviewer
end ReviewQueue
