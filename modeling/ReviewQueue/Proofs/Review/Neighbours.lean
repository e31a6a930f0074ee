import Mathlib.Data.List.Nodup
import Mathlib.Data.Nat.Find
import ReviewQueue.Proofs.Text.Decimal
import ReviewQueue.Review.Navigator

/-!
# The neighbours of a submission

A submission is located at the first entry with its id, and its neighbours are the entries beside
that place. Each navigator scans the list anew, so that two of them agree only by what they find:
`Navigator.around_of_isFirst` says it of any list, in which entries may be missing and ids repeated.

* `Navigator.next_eq_some_iff`, `Navigator.previous_eq_some_iff` — when there is a neighbour, and
  which one it is;
* `Navigator.next_locate` — the neighbour in a list with given ids;
* `Navigator.pathTo_eq_ok_iff` — when a move is made;
* `moves_along_list` — next and previous are inverse, and next runs to the end of the list.
-/

namespace ReviewQueue

/-! ## Entries and their places -/

namespace Siblings

/-- A list of siblings with these ids, in order. -/
def HasIds (siblings : List (Option Summary)) (ids : List Int) : Prop :=
  siblings.map (Option.map Summary.id) = ids.map some

/-- The id of the entry at a place. -/
def idAt? (siblings : List (Option Summary)) (i : Nat) : Option Int :=
  siblings[i]?.join.map Summary.id

theorem idAt?_cons_zero (entry : Option Summary) (rest : List (Option Summary)) :
    idAt? (entry :: rest) 0 = entry.map Summary.id := rfl

theorem idAt?_cons_succ (entry : Option Summary) (rest : List (Option Summary)) (i : Nat) :
    idAt? (entry :: rest) (i + 1) = idAt? rest i := rfl

theorem HasIds.idAt?_eq {siblings : List (Option Summary)} {ids : List Int}
    (h : HasIds siblings ids) (i : Nat) : idAt? siblings i = ids[i]? := by
  have hentry : (siblings[i]?).map (Option.map Summary.id) = ids[i]?.map some := by
    rw [← List.getElem?_map, ← List.getElem?_map, h]
  unfold idAt?
  cases hsibling : siblings[i]? with
  | none =>
      rw [hsibling, Option.map_none, eq_comm, Option.map_eq_none_iff] at hentry
      rw [hentry]
      rfl
  | some entry =>
      rw [hsibling, Option.map_some, eq_comm, Option.map_eq_some_iff] at hentry
      obtain ⟨id, hid, heq⟩ := hentry
      rw [hid, Option.join_some, ← heq]

/-- The first entry with an id stands at a place. -/
structure IsFirst (siblings : List (Option Summary)) (id : Int) (i : Nat) : Prop where
  here : idAt? siblings i = some id
  before : ∀ j < i, idAt? siblings j ≠ some id

theorem IsFirst.unique {siblings : List (Option Summary)} {id : Int} {i j : Nat}
    (hi : IsFirst siblings id i) (hj : IsFirst siblings id j) : i = j := by
  rcases Nat.lt_trichotomy i j with hlt | heq | hlt
  · exact absurd hi.here (hj.before i hlt)
  · exact heq
  · exact absurd hj.here (hi.before j hlt)

theorem exists_isFirst {siblings : List (Option Summary)} {id : Int} {i : Nat}
    (h : idAt? siblings i = some id) : ∃ j, IsFirst siblings id j := by
  classical
  have hex : ∃ j, idAt? siblings j = some id := ⟨i, h⟩
  exact ⟨Nat.find hex, Nat.find_spec hex, fun j hj => Nat.find_min hex hj⟩

/-- Where no id is repeated, every entry is the first one with its id. -/
theorem HasIds.isFirst_iff {siblings : List (Option Summary)} {ids : List Int}
    (h : HasIds siblings ids) (hnodup : ids.Nodup) (id : Int) (i : Nat) :
    IsFirst siblings id i ↔ ids[i]? = some id := by
  refine ⟨fun hfirst => h.idAt?_eq i ▸ hfirst.here, fun hid => ⟨(h.idAt?_eq i).trans hid, ?_⟩⟩
  intro j hlt hj
  rw [h.idAt?_eq j] at hj
  obtain ⟨hi, -⟩ := List.getElem?_eq_some_iff.mp hid
  -- an earlier entry with the id would be the same one, since no id is repeated
  exact Nat.ne_of_lt hlt ((List.getElem?_inj (Nat.lt_trans hlt hi) hnodup).mp (hj.trans hid.symm))

end Siblings

namespace Navigator

open Siblings

/-! ## What a scan finds -/

theorem target?_eq (entry : Option Summary) :
    target? entry = (entry.map Summary.id).filter (· ≠ 0) := by
  cases entry with
  | none => rfl
  | some s =>
      unfold target?
      by_cases hzero : s.id = 0 <;> simp [Option.filter, hzero]

theorem isAt_eq (id : Int) (entry : Option Summary) :
    isAt id entry = decide (entry.map Summary.id = some id) := by
  cases entry with
  | none => rfl
  | some s => simp only [isAt, Option.any_some, Option.map_some, Option.some.injEq]; rfl

/-- The neighbours of the first entry with an id. What stands before the list counts as the entry
before its first one. -/
theorem around_of_isFirst {siblings : List (Option Summary)} {id : Int} {i : Nat}
    (h : IsFirst siblings id i) (before : Option Summary) :
    around id before siblings =
      ((idAt? (before :: siblings) i).filter (· ≠ 0), (idAt? siblings (i + 1)).filter (· ≠ 0)) := by
  induction siblings generalizing i before with
  | nil => cases h.here
  | cons entry rest ih =>
      cases i with
      | zero =>
          -- the scan stops here, with what it kept of the entry before
          have hat : isAt id entry = true := by
            rw [isAt_eq]
            exact decide_eq_true h.here
          rw [around, if_pos hat, target?_eq, target?_eq, idAt?_cons_zero, idAt?_cons_succ]
          unfold idAt?
          rw [List.head?_eq_getElem?]
      | succ i =>
          -- this entry has another id, and becomes the one before
          have hat : ¬ isAt id entry = true := by
            rw [isAt_eq, decide_eq_true_eq]
            exact h.before 0 (Nat.succ_pos i)
          have hrest : IsFirst rest id i :=
            ⟨h.here, fun j hj => h.before (j + 1) (Nat.succ_lt_succ hj)⟩
          rw [around, if_neg hat, ih hrest]
          rfl

/-- A scan for an id that no entry has finds no neighbours. -/
theorem around_of_absent {siblings : List (Option Summary)} {id : Int}
    (h : ∀ i, idAt? siblings i ≠ some id) (before : Option Summary) :
    around id before siblings = (none, none) := by
  induction siblings generalizing before with
  | nil => rfl
  | cons entry rest ih =>
      have hat : ¬ isAt id entry = true := by
        rw [isAt_eq, decide_eq_true_eq]
        exact h 0
      rw [around, if_neg hat]
      exact ih (fun i => h (i + 1)) entry

/-! ## Navigators -/

section Located

variable {siblings : List (Option Summary)} {current : String}

theorem locate_of_isFirst {id : Int} {i : Nat} (hid : Text.toInt? current = some id)
    (h : IsFirst siblings id i) (template : String) (params : Params) :
    locate siblings current template params =
      { template, params
        next := (idAt? siblings (i + 1)).filter (· ≠ 0)
        previous := (idAt? (none :: siblings) i).filter (· ≠ 0) } := by
  rw [locate, hid]
  simp only [around_of_isFirst h]

theorem locate_of_absent (h : ∀ id i, Text.toInt? current = some id → ¬ IsFirst siblings id i)
    (template : String) (params : Params) :
    locate siblings current template params = { template, params } := by
  unfold locate
  cases hid : Text.toInt? current with
  | none => rfl
  | some id =>
      have habsent : ∀ i, idAt? siblings i ≠ some id := by
        intro i hi
        obtain ⟨j, hj⟩ := exists_isFirst hi
        exact h id j hid hj
      simp only [around_of_absent habsent]

variable (siblings current) (template : String) (params : Params)

theorem locate_template : (locate siblings current template params).template = template := by
  unfold locate
  split <;> rfl

theorem locate_params : (locate siblings current template params).params = params := by
  unfold locate
  split <;> rfl

/-- There is a next submission exactly when the entry after the first one with the current id has an
id, and this is no zero. -/
theorem next_eq_some_iff (y : Int) :
    (locate siblings current template params).next = some y ↔
      ∃ id i, Text.toInt? current = some id ∧ IsFirst siblings id i ∧
        idAt? siblings (i + 1) = some y ∧ y ≠ 0 := by
  by_cases hlocated : ∃ id i, Text.toInt? current = some id ∧ IsFirst siblings id i
  · obtain ⟨id, i, hid, hi⟩ := hlocated
    rw [locate_of_isFirst hid hi, Option.filter_eq_some_iff]
    constructor
    · rintro ⟨hy, hne⟩
      exact ⟨id, i, hid, hi, hy, of_decide_eq_true hne⟩
    · rintro ⟨id', j, hid', hj, hy, hne⟩
      -- there is one current id, and it has one first place
      obtain rfl := Option.some.inj (hid.symm.trans hid')
      obtain rfl := hi.unique hj
      exact ⟨hy, decide_eq_true hne⟩
  · rw [locate_of_absent fun id i hid hi => hlocated ⟨id, i, hid, hi⟩]
    refine iff_of_false (by simp) ?_
    rintro ⟨id, i, hid, hi, -⟩
    exact hlocated ⟨id, i, hid, hi⟩

/-- There is a previous submission exactly when the entry before the first one with the current id
has an id, and this is no zero. -/
theorem previous_eq_some_iff (y : Int) :
    (locate siblings current template params).previous = some y ↔
      ∃ id i, Text.toInt? current = some id ∧ IsFirst siblings id (i + 1) ∧
        idAt? siblings i = some y ∧ y ≠ 0 := by
  by_cases hlocated : ∃ id i, Text.toInt? current = some id ∧ IsFirst siblings id i
  · obtain ⟨id, i, hid, hi⟩ := hlocated
    rw [locate_of_isFirst hid hi, Option.filter_eq_some_iff]
    constructor
    · rintro ⟨hy, hne⟩
      cases i with
      | zero => cases hy
      | succ i => exact ⟨id, i, hid, hi, hy, of_decide_eq_true hne⟩
    · rintro ⟨id', j, hid', hj, hy, hne⟩
      obtain rfl := Option.some.inj (hid.symm.trans hid')
      obtain rfl := hi.unique hj
      exact ⟨hy, decide_eq_true hne⟩
  · rw [locate_of_absent fun id i hid hi => hlocated ⟨id, i, hid, hi⟩]
    refine iff_of_false (by simp) ?_
    rintro ⟨id, i, hid, hi, -⟩
    exact hlocated ⟨id, i + 1, hid, hi⟩

end Located

/-! ## Lists with given ids -/

/-- What a list needs so that every submission in it can be located by its own id: no id is a zero
or repeated, and all fit a word. -/
structure Distinct (ids : List Int) : Prop where
  nodup : ids.Nodup
  nonzero : ∀ id ∈ ids, id ≠ 0
  fits : ∀ id ∈ ids, fitsWord id = true

/-- The neighbour of an id in a list, when it is no zero. -/
theorem next_locate {siblings : List (Option Summary)} {before : List Int} {id : Int}
    {after : List Int} (h : HasIds siblings (before ++ id :: after)) (hbefore : id ∉ before)
    (hafter : ∀ next ∈ after, next ≠ 0) (hid : fitsWord id = true) (template : String)
    (params : Params) :
    locate siblings (Text.ofInt id) template params =
      { template, params
        next := after.head?
        previous := (around id none siblings).1 } := by
  have hfirst : IsFirst siblings id before.length := by
    refine ⟨by rw [h.idAt?_eq]; simp, fun j hj heq => hbefore ?_⟩
    rw [h.idAt?_eq, List.getElem?_append_left hj] at heq
    exact List.mem_of_getElem? heq
  have hnext : (idAt? siblings (before.length + 1)).filter (· ≠ 0) = after.head? := by
    rw [h.idAt?_eq, List.getElem?_append_right (by omega), Nat.add_sub_cancel_left,
      List.getElem?_cons_succ, ← List.head?_eq_getElem?]
    cases hhead : after.head? with
    | none => rfl
    | some next =>
        exact Option.filter_eq_some_iff.mpr
          ⟨rfl, decide_eq_true (hafter next (List.mem_of_mem_head? hhead))⟩
  rw [locate_of_isFirst (Text.toInt?_ofInt hid) hfirst, hnext]
  simp only [around_of_isFirst hfirst]

section Ids

variable {siblings : List (Option Summary)} {ids : List Int} (h : HasIds siblings ids)
  (hdistinct : Distinct ids) (template : String) (params : Params)

include h hdistinct

/-- The next submission is the one whose id follows in the list. -/
theorem next_iff_follows (x y : Int) :
    (locate siblings (Text.ofInt x) template params).next = some y ↔
      ∃ i, ids[i]? = some x ∧ ids[i + 1]? = some y := by
  rw [next_eq_some_iff]
  constructor
  · rintro ⟨id, i, hid, hi, hy, -⟩
    obtain rfl := Text.eq_of_toInt?_ofInt hid
    exact ⟨i, (h.isFirst_iff hdistinct.nodup x i).mp hi, h.idAt?_eq _ ▸ hy⟩
  · rintro ⟨i, hx, hy⟩
    exact ⟨x, i, Text.toInt?_ofInt (hdistinct.fits x (List.mem_of_getElem? hx)),
      (h.isFirst_iff hdistinct.nodup x i).mpr hx, (h.idAt?_eq _).trans hy,
      hdistinct.nonzero y (List.mem_of_getElem? hy)⟩

/-- The previous submission is the one whose id it follows in the list. -/
theorem previous_iff_follows (x y : Int) :
    (locate siblings (Text.ofInt y) template params).previous = some x ↔
      ∃ i, ids[i]? = some x ∧ ids[i + 1]? = some y := by
  rw [previous_eq_some_iff]
  constructor
  · rintro ⟨id, i, hid, hi, hx, -⟩
    obtain rfl := Text.eq_of_toInt?_ofInt hid
    exact ⟨i, h.idAt?_eq _ ▸ hx, (h.isFirst_iff hdistinct.nodup y (i + 1)).mp hi⟩
  · rintro ⟨i, hx, hy⟩
    exact ⟨y, i, Text.toInt?_ofInt (hdistinct.fits y (List.mem_of_getElem? hy)),
      (h.isFirst_iff hdistinct.nodup y (i + 1)).mpr hy, (h.idAt?_eq _).trans hx,
      hdistinct.nonzero x (List.mem_of_getElem? hx)⟩

/-- Nothing comes before the first submission of a list. -/
theorem previous_of_head {x : Int} (hx : ids.head? = some x) :
    (locate siblings (Text.ofInt x) template params).previous = none := by
  refine Option.eq_none_iff_forall_ne_some.mpr fun w hw => ?_
  obtain ⟨i, -, hi⟩ := (previous_iff_follows h hdistinct template params w x).mp hw
  rw [List.head?_eq_getElem?] at hx
  obtain ⟨hlt, -⟩ := List.getElem?_eq_some_iff.mp hx
  cases (List.getElem?_inj hlt hdistinct.nodup).mp (hx.trans hi.symm)

/-- Nothing comes after the last submission of a list. -/
theorem next_of_getLast {x : Int} (hx : ids.getLast? = some x) :
    (locate siblings (Text.ofInt x) template params).next = none := by
  refine Option.eq_none_iff_forall_ne_some.mpr fun w hw => ?_
  obtain ⟨i, hi, hw⟩ := (next_iff_follows h hdistinct template params x w).mp hw
  rw [List.getLast?_eq_getElem?] at hx
  obtain ⟨hlt, -⟩ := List.getElem?_eq_some_iff.mp hi
  obtain ⟨hlt', -⟩ := List.getElem?_eq_some_iff.mp hw
  have hlast := (List.getElem?_inj hlt hdistinct.nodup).mp (hi.trans hx.symm)
  omega

end Ids

/-- Where moves to the next submission lead, one after the other, until there is none. -/
inductive Onward (siblings : List (Option Summary)) (template : String) (params : Params) :
    Int → List Int → Prop
  | stop {id : Int} : (locate siblings (Text.ofInt id) template params).next = none →
      Onward siblings template params id []
  | step {id next : Int} {visited : List Int} :
      (locate siblings (Text.ofInt id) template params).next = some next →
        Onward siblings template params next visited →
          Onward siblings template params id (next :: visited)

/-- Moves to the next submission visit what comes after it in the list, and stop at its end. -/
theorem onward_iff {siblings : List (Option Summary)} {before after : List Int} {x : Int}
    (h : HasIds siblings (before ++ x :: after)) (hdistinct : Distinct (before ++ x :: after))
    (template : String) (params : Params) (visited : List Int) :
    Onward siblings template params x visited ↔ visited = after := by
  have hnext {before : List Int} {x : Int} {after : List Int}
      (h : HasIds siblings (before ++ x :: after)) (hdistinct : Distinct (before ++ x :: after)) :
      (locate siblings (Text.ofInt x) template params).next = after.head? := by
    have hbefore : x ∉ before := fun hmem =>
      (List.nodup_append.mp hdistinct.nodup).2.2 x hmem x List.mem_cons_self rfl
    rw [next_locate h hbefore (fun y hy => hdistinct.nonzero y (by simp [hy]))
      (hdistinct.fits x (by simp))]
  induction after generalizing before x visited with
  | nil =>
      have hnone := hnext h hdistinct
      refine ⟨fun honward => ?_, fun heq => heq ▸ .stop hnone⟩
      cases honward with
      | stop _ => rfl
      | step hsome _ => cases hsome.symm.trans hnone
  | cons y after ih =>
      have hsome := hnext h hdistinct
      -- what was visited goes to the front, and the list stays the same
      have hsplit : before ++ x :: y :: after = (before ++ [x]) ++ y :: after := by simp
      rw [hsplit] at h hdistinct
      constructor
      · intro honward
        cases honward with
        | stop hnone => cases hnone.symm.trans hsome
        | step hstep hrest =>
            obtain rfl := Option.some.inj (hstep.symm.trans hsome)
            rw [(ih h hdistinct _).mp hrest]
      · rintro rfl
        exact .step hsome ((ih h hdistinct after).mpr rfl)

/-! ## Moves -/

/-- A move goes to a path exactly when there is a submission on that side and this is the path that
is built for it. -/
theorem pathTo_eq_ok_iff (n : Navigator) (target : Option Int) (path : String) :
    n.pathTo target = .ok path ↔
      ∃ id, target = some id ∧
        Route.build n.template ((Route.submissionId, Text.ofInt id) :: n.params) = .ok path := by
  cases target with
  | none => simp [pathTo]
  | some id =>
      simp only [pathTo, Option.some.injEq, exists_eq_left']
      cases Route.build n.template ((Route.submissionId, Text.ofInt id) :: n.params) <;> simp

end Navigator

open Navigator Siblings

/-- **Next and previous are inverse, and next runs to the end of the list.** In a list whose ids are
no zeros, are not repeated and fit a word, `y` is next to `x` exactly when `x` is previous to `y`.
The first submission has no previous one and the last no next one, and moves to the next one visit,
from any submission on, what comes after it in the list, each submission once, and then stop. In any
list, and for any text of the current id, a neighbour is the entry beside the first one with that
id, when it is there and its id is no zero. A move is made exactly when there is a submission on its
side and the path to it can be built. -/
theorem moves_along_list {ids : List Int} {siblings : List (Option Summary)}
    (h : HasIds siblings ids) (hdistinct : Distinct ids) (entries : List (Option Summary))
    (current template : String) (params : Params) (n : Navigator) :
    (∀ x y, (locate siblings (Text.ofInt x) template params).next = some y ↔
      (locate siblings (Text.ofInt y) template params).previous = some x) ∧
    (∀ x ∈ ids.head?, (locate siblings (Text.ofInt x) template params).previous = none) ∧
    (∀ x ∈ ids.getLast?, (locate siblings (Text.ofInt x) template params).next = none) ∧
    (∀ before x after, ids = before ++ x :: after → after.Nodup ∧
      ∀ visited, Onward siblings template params x visited ↔ visited = after) ∧
    (∀ y, (locate entries current template params).next = some y ↔
      ∃ id i, Text.toInt? current = some id ∧ IsFirst entries id i ∧
        idAt? entries (i + 1) = some y ∧ y ≠ 0) ∧
    (∀ y, (locate entries current template params).previous = some y ↔
      ∃ id i, Text.toInt? current = some id ∧ IsFirst entries id (i + 1) ∧
        idAt? entries i = some y ∧ y ≠ 0) ∧
    (∀ path, n.goNext = .ok path ↔ ∃ id, n.next = some id ∧
      Route.build n.template ((Route.submissionId, Text.ofInt id) :: n.params) = .ok path) ∧
    ∀ path, n.goPrevious = .ok path ↔ ∃ id, n.previous = some id ∧
      Route.build n.template ((Route.submissionId, Text.ofInt id) :: n.params) = .ok path := by
  refine ⟨fun x y => ?_, fun x => previous_of_head h hdistinct template params,
    fun x => next_of_getLast h hdistinct template params, fun before x after hsplit => ?_,
    next_eq_some_iff entries current template params,
    previous_eq_some_iff entries current template params, pathTo_eq_ok_iff n n.next,
    pathTo_eq_ok_iff n n.previous⟩
  · exact (next_iff_follows h hdistinct template params x y).trans
      (previous_iff_follows h hdistinct template params x y).symm
  · subst hsplit
    have hafter := (List.nodup_append.mp hdistinct.nodup).2.1
    exact ⟨(List.nodup_cons.mp hafter).2, onward_iff h hdistinct template params⟩

/-- A list of three submissions. -/
def Siblings.three : List (Option Summary) :=
  [some { id := 7 }, some { id := -2 }, some { id := 5 }]

theorem moves_along_three :
    Distinct [7, -2, 5] ∧
      (locate three (Text.ofInt 7) Route.defaultTemplate []).next = some (-2) ∧
      (locate three (Text.ofInt (-2)) Route.defaultTemplate []).previous = some 7 ∧
      Onward three Route.defaultTemplate [] 7 [-2, 5] := by
  have hdistinct : Distinct [7, -2, 5] := ⟨by decide, by decide, by decide⟩
  have hids : HasIds three [7, -2, 5] := rfl
  obtain ⟨hinverse, -, -, honward, -⟩ := moves_along_list hids hdistinct [] ""
    Route.defaultTemplate [] { template := "", params := [] }
  have hnext : (locate three (Text.ofInt 7) Route.defaultTemplate []).next = some (-2) := by
    decide +kernel
  exact ⟨hdistinct, hnext, (hinverse 7 (-2)).mp hnext,
    ((honward [] 7 [-2, 5] rfl).2 [-2, 5]).mpr rfl⟩

end ReviewQueue
