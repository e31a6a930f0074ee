import ReviewQueue.Import.File

/-!
# What a document decodes to

Whatever document is decoded, the numbers that it gives fit a word, and a record is its blank one
with fields set one after the other.

* `gives_int`, `Gives.list` — numbers, and lists of what has a property;
* `gives_record` — what the blank record has and every field keeps.
-/

namespace ReviewQueue

/-! ## Numbers -/

theorem Binary64.fitsWord_truncate (x : Binary64) : fitsWord x.truncate = true := by
  have hleast : fitsWord wordMin = true := by decide
  cases x with
  | infinite negative => exact hleast
  | finite negative mantissa exponent =>
      simp only [truncate]
      generalize (if exponent < 0 then mantissa / Nat.pow 2 exponent.natAbs
        else mantissa * Nat.pow 2 exponent.natAbs) = n
      generalize (if negative then -(n : Int) else n) = v
      split <;> assumption

theorem Literal.fitsWord_of_read {s : List Char} {n : Int} (h : read? s = some n) :
    fitsWord n = true := by
  simp only [read?, bind, Option.bind_eq_some_iff] at h
  obtain ⟨digits, -, h⟩ := h
  obtain ⟨hfits, hvalue⟩ := Option.ite_none_right_eq_some.mp h
  exact Option.some.inj hvalue ▸ hfits

namespace Yaml

theorem fitsWord_of_number {s : List Char} {n : Int} (h : number? s = some (.int n)) :
    fitsWord n = true := by
  unfold number? at h
  generalize (if s.head? = some '.' then s else s.filter (· != '_')) = digits at h
  simp only at h
  cases hread : Literal.read? digits with
  | some m =>
      simp only [hread, Option.some.injEq, Meaning.int.injEq] at h
      exact Literal.fitsWord_of_read (hread.trans (congrArg some h))
  | none =>
      simp only [hread] at h
      split at h <;> cases h

theorem fitsWord_of_plainMeaning {text : String} {n : Int} (h : plainMeaning text = .int n) :
    fitsWord n = true := by
  unfold plainMeaning at h
  -- only a text that may be a number by its first character is an integer
  repeat' split at h
  all_goals try cases h
  cases hnumber : number? text.toList with
  | none => simp [hnumber] at h
  | some m =>
      rw [hnumber, Option.getD_some] at h
      exact fitsWord_of_number (hnumber.trans (congrArg some h))

/-- A scalar is an integer, with or without a tag, only if its text is. -/
theorem plainMeaning_of_meaning {plain : Bool} {tag text : String} {n : Int}
    (h : meaning plain tag text = .ok (.int n)) : plainMeaning text = .int n := by
  unfold meaning at h
  generalize plainMeaning text = m at h ⊢
  split at h
  all_goals try cases h
  · rfl
  · split at h <;> cases h
  -- without a tag, a scalar that is not plain is a text
  all_goals
    cases plain with
    | false => cases h
    | true => exact Except.ok.inj h

/-! ## Decoders -/

/-- A property of whatever a decoder gives. -/
def Gives (P : α → Prop) (decode : Decoder α) : Prop :=
  ∀ node v, decode node = .ok (some v) → P v

theorem gives_trivial (decode : Decoder α) : Gives (fun _ => True) decode :=
  fun _ _ _ => trivial

theorem mem_of_mapM {f : α → Except ε β} {items : List α} {results : List β}
    (h : items.mapM f = .ok results) {b : β} (hb : b ∈ results) : ∃ a ∈ items, f a = .ok b := by
  induction items generalizing results with
  | nil =>
      cases h
      cases hb
  | cons a items ih =>
      rw [List.mapM_cons] at h
      simp only [bind, Except.bind] at h
      cases hfirst : f a with
      | error e => simp [hfirst] at h
      | ok first =>
          cases hrest : items.mapM f with
          | error e => simp [hfirst, hrest] at h
          | ok rest =>
              simp only [hfirst, hrest] at h
              cases h
              rcases List.mem_cons.mp hb with rfl | hb
              · exact ⟨a, List.mem_cons_self, hfirst⟩
              · obtain ⟨a', ha', hb'⟩ := ih hrest hb
                exact ⟨a', List.mem_cons_of_mem a ha', hb'⟩

theorem gives_int : Gives (fun n => fitsWord n = true) decodeInt := by
  intro node n h
  cases node with
  | scalar plain tag text =>
      simp only [decodeInt, bind, Except.bind] at h
      cases hmeaning : meaning plain tag text with
      | error e => simp [hmeaning] at h
      | ok m =>
          simp only [hmeaning] at h
          cases m with
          | int m =>
              cases h
              exact fitsWord_of_plainMeaning (plainMeaning_of_meaning hmeaning)
          | float x =>
              simp only at h
              split at h
              · cases h
              · cases h
                exact x.fitsWord_truncate
          | null | bool _ | text _ => cases h
  | _ => cases h

theorem Gives.list {P : α → Prop} {item : Decoder α} (h : Gives P item) :
    Gives (fun items => ∀ a ∈ items, P a) (decodeList item) := by
  intro node items hdecode
  unfold decodeList at hdecode
  split at hdecode
  · rename_i nodes
    simp only [bind, Except.bind] at hdecode
    cases hitems : nodes.mapM item with
    | error e => simp [hitems] at hdecode
    | ok results =>
        simp only [hitems] at hdecode
        cases hdecode
        intro a ha
        obtain ⟨o, ho, rfl⟩ := List.mem_filterMap.mp ha
        obtain ⟨node, -, hnode⟩ := mem_of_mapM hitems ho
        exact h node a hnode
  · split at hdecode <;> cases hdecode

/-! ## Records -/

/-- A property that reading a field keeps. -/
def RecordField.Keeps (P : σ → Prop) (f : RecordField σ) : Prop :=
  ∀ r node next, f.read r node = .ok next → P r → P next

theorem Gives.field {P : σ → Prop} {Q : α → Prop} {decode : Decoder α} {set : σ → α → σ}
    (h : Gives Q decode) (name : String) (hset : ∀ r a, P r → Q a → P (set r a)) :
    (Yaml.field name decode set).Keeps P := by
  intro r node next hread hr
  simp only [Yaml.field, bind, Except.bind] at hread
  cases hdecode : decode node with
  | error e => simp [hdecode] at hread
  | ok o =>
      simp only [hdecode] at hread
      cases hread
      cases o with
      | none => exact hr
      | some a => exact hset r a hr (h node a hdecode)

theorem foldlM_keeps {P : σ → Prop} {f : σ → α → Except ε σ}
    (h : ∀ r a next, f r a = .ok next → P r → P next) {items : List α} {first last : σ}
    (hfold : items.foldlM f first = .ok last) (hfirst : P first) : P last := by
  induction items generalizing first with
  | nil =>
      cases hfold
      exact hfirst
  | cons a items ih =>
      rw [List.foldlM_cons] at hfold
      cases hstep : f first a with
      | error e => simp [hstep, bind, Except.bind] at hfold
      | ok next =>
          rw [hstep] at hfold
          exact ih hfold (h first a next hstep hfirst)

/-- What the blank record has and no field breaks, every record has. -/
theorem gives_record {P : σ → Prop} {blank : σ} {fields : List (RecordField σ)} (hblank : P blank)
    (h : ∀ f ∈ fields, f.Keeps P) : Gives P (decodeRecord blank fields) := by
  intro node r hdecode
  unfold decodeRecord at hdecode
  split at hdecode
  · cases hdecode
  · cases hmembers : members node with
    | error e => simp [hmembers, bind, Except.bind] at hdecode
    | ok entries =>
        simp only [hmembers, bind, Except.bind] at hdecode
        split at hdecode
        · cases hdecode
        · rename_i hread
          cases hdecode
          refine foldlM_keeps (fun r entry next hnext hr => ?_) hread hblank
          split at hnext
          · rename_i f hf
            exact h f (List.mem_of_find?_eq_some hf) r entry.2 next hnext hr
          · cases hnext
            exact hr

end Yaml
end ReviewQueue
