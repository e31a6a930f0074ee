import ReviewQueue.Query.Desk

/-!
# What a desk shows

A fetch stores its outcome under its path and touches no other path. What is shown after a fetch
that left no error is the data that it brought.

* `Cache.entry?_store`, `Cache.entry?_store_of_ne` — the entries after a fetch;
* `Cache.data_store` — what is known of the data under a path stays known;
* `Cache.pendingOf_begin`, `Cache.pendingOf_conclude` — how many fetches of a path are pending, as
  they begin and end;
* `Desk.fetched_of_get` — a view without an error shows what was just fetched.
-/

namespace ReviewQueue

namespace Cache

theorem lookup_put (key : String) (value : α) (table : List (String × α)) :
    (put key value table).lookup key = some value := by
  simp [put]

theorem lookup_drop (key : String) (table : List (String × α)) :
    (drop key table).lookup key = none := by
  rw [List.lookup_eq_none_iff]
  intro entry hentry
  have hkey : entry.1 ≠ key := by simpa using (List.mem_filter.mp hentry).2
  exact bne_iff_ne.mpr (Ne.symm hkey)

/-- Removing a key leaves every other key alone. -/
theorem lookup_drop_of_ne {key other : String} (h : other ≠ key) (table : List (String × α)) :
    (drop key table).lookup other = table.lookup other := by
  have hother : (other == key) = false := beq_false_of_ne h
  unfold drop
  induction table with
  | nil => rfl
  | cons entry table ih =>
      by_cases hkey : entry.1 = key
      · have hskip : (other == entry.1) = false := by rw [hkey, hother]
        rw [List.filter_cons_of_neg (by simp [hkey]), ih, List.lookup_cons, hskip]
      · rw [List.filter_cons_of_pos (by simpa using hkey), List.lookup_cons, List.lookup_cons, ih]

/-- Setting the value of a key leaves every other key alone. -/
theorem lookup_put_of_ne {key other : String} (h : other ≠ key) (value : α)
    (table : List (String × α)) : (put key value table).lookup other = table.lookup other := by
  have hother : (other == key) = false := beq_false_of_ne h
  rw [put, List.lookup_cons, hother]
  exact lookup_drop_of_ne h table

theorem entry?_store (c : Cache) (now : Timestamp) (path : String) (outcome : Outcome) :
    Cache.entry? (c.store now path outcome) path =
      some (((c.entry? path).getD {}).after now outcome) :=
  lookup_put path _ c.entries

theorem entry?_store_of_ne (c : Cache) (now : Timestamp) {path other : String}
    (h : other ≠ path) (outcome : Outcome) :
    Cache.entry? (c.store now path outcome) other = c.entry? other :=
  lookup_put_of_ne h _ c.entries

/-- Storing the outcome of a fetch keeps what is known of the data under a path, when what it brings
for the path is such data. A failure leaves the data that is there. -/
theorem data_store {P : Option String → Prop} {c : Cache} {path : String}
    (h : P (c.cached path).data) (now : Timestamp) (other : String) (outcome : Outcome)
    (hdata : other = path → ∀ data, outcome = .ok data → P data) :
    P (Cache.cached (c.store now other outcome) path).data := by
  unfold cached at *
  by_cases hpath : other = path
  · subst hpath
    rw [entry?_store, Option.map_some, Option.getD_some]
    cases outcome with
    | ok data => exact hdata rfl data rfl
    | error e =>
        show P ((c.entry? other).getD {}).data
        cases hentry : c.entry? other with
        | none =>
            rw [hentry] at h
            exact h
        | some entry =>
            rw [hentry] at h
            exact h
  · rw [entry?_store_of_ne c now (Ne.symm hpath) outcome]
    exact h

@[simp] theorem entry?_begin (c : Cache) (path other : String) :
    Cache.entry? (c.begin path) other = c.entry? other := rfl

@[simp] theorem entry?_conclude (c : Cache) (path other : String) :
    Cache.entry? (c.conclude path) other = c.entry? other := by
  unfold conclude
  split <;> rfl

@[simp] theorem pendingOf_begin (c : Cache) (path : String) :
    Cache.pendingOf (c.begin path) path = c.pendingOf path + 1 :=
  congrArg (Option.getD · 0) (lookup_put path _ c.pending)

theorem pendingOf_begin_of_ne (c : Cache) {path other : String} (h : other ≠ path) :
    Cache.pendingOf (c.begin path) other = c.pendingOf other :=
  congrArg (Option.getD · 0) (lookup_put_of_ne h _ c.pending)

@[simp] theorem pendingOf_conclude (c : Cache) (path : String) :
    Cache.pendingOf (c.conclude path) path = c.pendingOf path - 1 := by
  have hdrop : (drop path c.pending).lookup path = none := lookup_drop path c.pending
  unfold conclude
  split
  case h_1 hzero =>
    rw [hzero]
    exact congrArg (Option.getD · 0) hdrop
  case h_2 hone =>
    rw [hone]
    exact congrArg (Option.getD · 0) hdrop
  case h_3 n hmore =>
    rw [hmore]
    exact congrArg (Option.getD · 0) (lookup_put path (n + 1) c.pending)

@[simp] theorem pendingOf_store (c : Cache) (now : Timestamp) (path : String) (outcome : Outcome)
    (other : String) : Cache.pendingOf (c.store now path outcome) other = c.pendingOf other := rfl

theorem pendingOf_conclude_of_ne (c : Cache) {path other : String} (h : other ≠ path) :
    Cache.pendingOf (c.conclude path) other = c.pendingOf other := by
  unfold conclude
  split
  case h_1 | h_2 => exact congrArg (Option.getD · 0) (lookup_drop_of_ne h c.pending)
  case h_3 n _ => exact congrArg (Option.getD · 0) (lookup_put_of_ne h (n + 1) c.pending)

end Cache

namespace Desk

variable (d : Desk ω)

@[simp] theorem remote_prefetch (path : String) : (d.prefetch path).remote = d.remote := by
  unfold prefetch
  split <;> rfl

theorem remote_refresh (paths : List String) : (d.refresh paths).remote = d.remote := by
  unfold refresh
  induction paths generalizing d with
  | nil => rfl
  | cons path paths ih =>
      rw [List.foldl_cons, ih]
      split <;> rfl

variable [Remote ω]

@[simp] theorem remote_get (path : String) :
    (d.get path).1.remote = (Remote.fetch d.remote path).1 := rfl

/-- A view without an error shows what was just fetched. -/
theorem fetched_of_get {d : Desk ω} {path : String} (h : (d.get path).2.error = none) :
    (Remote.fetch d.remote path).2 = .ok (d.get path).2.data := by
  unfold get at h ⊢
  simp only [Cache.cached, Cache.entry?_store, Option.map_some, Option.getD_some] at h ⊢
  cases houtcome : (Remote.fetch d.remote path).2 with
  | ok data => rfl
  | error e =>
      rw [houtcome] at h
      cases h

/-- After a fetch that succeeds, its data is shown. -/
theorem get_of_fetched {d : Desk ω} {path : String} {data : Option String}
    (h : (Remote.fetch d.remote path).2 = .ok data) :
    (d.get path).2.error = none ∧ (d.get path).2.data = data := by
  unfold get
  simp only [Cache.cached, Cache.entry?_store, Option.map_some, Option.getD_some, h]
  exact ⟨rfl, rfl⟩

/-- After a fetch that fails, its error is shown. -/
theorem error_of_failed {d : Desk ω} {path : String} {e : RequestError}
    (h : (Remote.fetch d.remote path).2 = .error e) : (d.get path).2.error = some e := by
  unfold get
  simp only [Cache.cached, Cache.entry?_store, Option.map_some, Option.getD_some, h]
  rfl

end Desk
end ReviewQueue
