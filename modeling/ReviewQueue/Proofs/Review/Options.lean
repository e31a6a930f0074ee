import ReviewQueue.Proofs.Grouping
import ReviewQueue.Review.Gate

/-!
# The verdicts that are offered

The options of the service are filtered by a list of wanted verdicts and sorted by the place of
their verdict in it. What comes of that can be said without sorting: for every wanted verdict, where
it is wanted first, all options of it in the order of the service.

* `StatusOption.grouped` — the options verdict by verdict;
* `StatusOption.sorted_select`, `StatusOption.filter_select` — the order of what is offered;
* `StatusOption.select_grouped` — what is offered, and that nothing is lost or repeated.
-/

namespace ReviewQueue.StatusOption

/-- The verdicts that are wanted in a mode. Parts take the known ones. -/
def wantedIn (mode : Mode) (wanted : List Status) : List Status :=
  if mode = .parts then Status.known else wanted

/-- The options of the wanted verdicts: verdict by verdict, where each is wanted first, and of one
verdict in their order. When nothing is wanted, all of them. -/
def grouped (wanted : List Status) (options : List StatusOption) : List StatusOption :=
  if wanted.isEmpty then options
  else wanted.eraseDups.flatMap fun st => options.filter (·.label == st)

variable (mode : Mode) (wanted : List Status) (options : List StatusOption)

theorem select_of_isEmpty (h : (wantedIn mode wanted).isEmpty = true) :
    select mode wanted options = options :=
  if_pos h

theorem select_of_not_isEmpty (h : ¬ (wantedIn mode wanted).isEmpty = true) :
    select mode wanted options =
      (options.filter fun o => (wantedIn mode wanted).contains o.label).mergeSort fun a b =>
        decide (rank (wantedIn mode wanted) a ≤ rank (wantedIn mode wanted) b) :=
  if_neg h

/-- What is offered are the options of wanted verdicts, each as often as the service has it. -/
theorem perm_select :
    (select mode wanted options).Perm
      (options.filter fun o =>
        (wantedIn mode wanted).isEmpty || (wantedIn mode wanted).contains o.label) := by
  by_cases hempty : (wantedIn mode wanted).isEmpty = true
  · rw [select_of_isEmpty mode wanted options hempty, hempty]
    simp
  · rw [select_of_not_isEmpty mode wanted options hempty, eq_false_of_ne_true hempty]
    exact List.mergeSort_perm _ _

section Wanted

variable {mode wanted options} (h : ¬ (wantedIn mode wanted).isEmpty = true)

include h

theorem label_mem_of_mem_select {o : StatusOption} (ho : o ∈ select mode wanted options) :
    o.label ∈ wantedIn mode wanted := by
  have hmem := (perm_select mode wanted options).subset ho
  rw [eq_false_of_ne_true h] at hmem
  simpa using (List.mem_filter.mp hmem).2

theorem sorted_select :
    (select mode wanted options).Pairwise fun a b =>
      rank (wantedIn mode wanted) a ≤ rank (wantedIn mode wanted) b := by
  rw [select_of_not_isEmpty mode wanted options h]
  refine (List.pairwise_mergeSort ?_ ?_ _).imp of_decide_eq_true
  · intro a b c hab hbc
    simp only [decide_eq_true_eq] at *
    omega
  · intro a b
    simp only [Bool.or_eq_true, decide_eq_true_eq]
    omega

/-- The options of a wanted verdict are offered in the order of the service. -/
theorem filter_select {st : Status} (hst : st ∈ wantedIn mode wanted) :
    (select mode wanted options).filter (·.label == st) = options.filter (·.label == st) := by
  -- options of one verdict have one rank, and sorting does not move them past each other
  have htied (a b : StatusOption) (ha : (a.label == st) = true) (hb : (b.label == st) = true) :
      rank (wantedIn mode wanted) a = rank (wantedIn mode wanted) b := by
    unfold rank
    rw [beq_iff_eq.mp ha, beq_iff_eq.mp hb]
  rw [select_of_not_isEmpty mode wanted options h, List.filter_mergeSort_of_tied _ _ htied,
    List.filter_filter]
  refine List.filter_congr fun o _ => ?_
  by_cases ho : o.label = st
  · simp [ho, hst]
  · simp [ho]

end Wanted

theorem select_eq_grouped :
    select mode wanted options = grouped (wantedIn mode wanted) options := by
  unfold grouped
  split
  · rename_i hempty
    exact select_of_isEmpty mode wanted options hempty
  · rename_i hsome
    have hsorted : (select mode wanted options).Pairwise fun a b =>
        rank (wantedIn mode wanted) a ≤ rank (wantedIn mode wanted) b := sorted_select hsome
    rw [List.eq_flatMap_filter_of_sorted (List.pairwise_idxOf_eraseDups (wantedIn mode wanted))
      hsorted fun o ho => List.mem_eraseDups.mpr (label_mem_of_mem_select hsome ho)]
    exact List.flatMap_congr fun st hst => filter_select hsome (List.mem_eraseDups.mp hst)

theorem isEmpty_eraseDups (wanted : List Status) : wanted.eraseDups.isEmpty = wanted.isEmpty := by
  cases wanted with
  | nil => rfl
  | cons st rest => rw [List.eraseDups_cons]; rfl

/-- Wanting a verdict again changes nothing. -/
theorem grouped_eraseDups : grouped wanted.eraseDups options = grouped wanted options := by
  unfold grouped
  rw [isEmpty_eraseDups, List.eraseDups_of_nodup (List.nodup_eraseDups wanted)]

theorem wantedIn_eraseDups :
    wantedIn mode wanted.eraseDups = wantedIn mode wanted ∨
      wantedIn mode wanted.eraseDups = (wantedIn mode wanted).eraseDups := by
  unfold wantedIn
  split
  · exact .inl rfl
  · exact .inr rfl

theorem select_eraseDups : select mode wanted.eraseDups options = select mode wanted options := by
  rw [select_eq_grouped, select_eq_grouped]
  rcases wantedIn_eraseDups mode wanted with heq | heq <;> rw [heq]
  exact grouped_eraseDups _ _

/-- What is offered is left as it is when it is selected from again. -/
theorem select_select :
    select mode wanted (select mode wanted options) = select mode wanted options := by
  by_cases hempty : (wantedIn mode wanted).isEmpty = true
  · exact select_of_isEmpty mode wanted _ hempty
  · have hall : (select mode wanted options).filter
        (fun o => (wantedIn mode wanted).contains o.label) = select mode wanted options := by
      refine List.filter_eq_self.mpr fun o ho => ?_
      simpa using label_mem_of_mem_select hempty ho
    rw [select_of_not_isEmpty mode wanted (select mode wanted options) hempty, hall]
    exact List.mergeSort_of_pairwise ((sorted_select hempty).imp decide_eq_true)

/-- **What is offered.** The options of the service come verdict by verdict, in the order in which
the verdicts are wanted first, and those of one verdict in the order of the service; when nothing is
wanted, all come as they are. Nothing that is wanted is lost, and nothing is added or repeated. To
want a verdict again has no effect, and neither has it to select again from what was selected. -/
theorem select_grouped :
    select mode wanted options = grouped (wantedIn mode wanted) options ∧
      (select mode wanted options).Perm
        (options.filter fun o =>
          (wantedIn mode wanted).isEmpty || (wantedIn mode wanted).contains o.label) ∧
      select mode wanted.eraseDups options = select mode wanted options ∧
      select mode wanted (select mode wanted options) = select mode wanted options :=
  ⟨select_eq_grouped mode wanted options, perm_select mode wanted options,
    select_eraseDups mode wanted options, select_select mode wanted options⟩

/-- A verdict that is wanted twice counts where it is wanted first, and an unknown one is left
out. -/
example : grouped [.rejected, .approved, .rejected] [⟨.approved⟩, ⟨⟨"OTHER"⟩⟩, ⟨.rejected⟩] =
    [⟨.rejected⟩, ⟨.approved⟩] := by
  decide

end ReviewQueue.StatusOption
