import Mathlib.Data.List.Forall2
import ReviewQueue.Proofs.Json.Layout
import ReviewQueue.Domain.Codec

/-!
# Decoding what was printed

A record is printed member by member in the order of its fields, and is decoded field by field from
a blank one. `Builds` follows both at once: each step prints one member and fills one field. A
record is one higher than its members, so that both are told with a bound on how high a text is.

* `Builds.prints` — a record that is printed member by member is decoded field by field;
* `prints_items`, `prints_present` — lists and optional values;
* `Keeps` — what every decoded value has, whatever text it was decoded from.
-/

namespace ReviewQueue.Json

variable {n : Nat}

/-! ## Printed values -/

/-- A text that is a value of this height at most, and is decoded as `v` over an older value. -/
structure Prints (n : Nat) (fill : Filler α) (old : α) (t : List Char) (v : α) : Prop where
  reads : Reads n t
  fills : fill old t = .fit v

theorem Prints.mono {m : Nat} (hle : n ≤ m) {fill : Filler α} {old v : α} {t : List Char}
    (h : Prints n fill old t v) : Prints m fill old t v :=
  ⟨h.reads.mono hle, h.fills⟩

/-- Blanks behind a printed value change nothing. -/
theorem Prints.decode_append {fill : Filler α} {blank v : α} {t blanks : List Char}
    (h : Prints n fill blank t v) (hn : n ≤ maxHeight) (hblanks : Blanks blanks) :
    decode? blank fill (t ++ blanks) = some v := by
  rw [decode?, decodeFilled, document?_append h.reads hn hblanks]
  simp only [h.fills]
  rfl

theorem Prints.decode {fill : Filler α} {blank v : α} {t : List Char}
    (h : Prints n fill blank t v) (hn : n ≤ maxHeight) : decode? blank fill t = some v := by
  have h' := h.decode_append hn blanks_nil
  rwa [List.append_nil] at h'

/-- Where a printed value is decoded at all, it is decoded as it was. -/
theorem Prints.eq_of_decode {fill : Filler α} {blank v w : α} {t blanks : List Char}
    (h : Prints n fill blank t v) (hblanks : Blanks blanks)
    (hdecode : decode? blank fill (t ++ blanks) = some w) : w = v := by
  unfold decode? decodeFilled at hdecode
  cases hdocument : document? (t ++ blanks) with
  | none =>
      rw [hdocument] at hdecode
      cases hdecode
  | some t' =>
      obtain rfl := document?_eq_of_reads h.reads hblanks hdocument
      rw [hdocument] at hdecode
      simp only [h.fills] at hdecode
      exact (Option.some.inj hdecode).symm

theorem Prints.decodeFirst {fill : Filler α} {blank v : α} {t : List Char}
    (h : Prints n fill blank t v) (hn : n ≤ maxHeight) :
    decodeFirst? blank fill t = some v := by
  have hsplit := splitFirst_self h.reads hn stops_nil
  rw [List.append_nil] at hsplit
  rw [decodeFirst?, hsplit]
  simp only [h.fills]
  rfl

theorem prints_int {i : Int} (h : fitsWord i = true) (old : Int) :
    Prints n fillInt old (intText i) i := by
  refine ⟨reads_number n (isNumber_intText i), ?_⟩
  obtain ⟨c, rest, htext, hc⟩ := (isNumber_intText i).head
  have hread : Text.readNumeral (intText i) = .ok i := by
    rw [intText, Text.readNumeral_numeral, if_pos h]
  -- the text of a number is neither missing nor a string
  have hnull : c ≠ 'n' ∧ c ≠ '"' := by
    constructor <;> (rintro rfl; revert hc; decide)
  rw [htext] at hread ⊢
  simp [fillInt, isNullText, hnull, hread]

theorem prints_string (s old : String) : Prints n fillString old (stringText s) s := by
  refine ⟨reads_stringText n s, ?_⟩
  have hread := readString_stringText s []
  simp [fillString, isNullText, stringText, hread]

theorem prints_raw {t : List Char} (h : Reads n t) (old : String) :
    Prints n fillRaw old t (.ofList t) :=
  ⟨h, rfl⟩

theorem prints_none (blank : α) (fill : Filler α) (old : Option α) :
    Prints n (fillOption blank fill) old nullText none :=
  ⟨reads_null n, rfl⟩

theorem prints_present {blank v : α} {fill : Filler α} {t : List Char}
    (h : Prints n fill blank t v) (hnull : isNullText t = false) :
    Prints n (fillOption blank fill) none t (some v) := by
  refine ⟨h.reads, ?_⟩
  simp [fillOption, hnull, h.fills, Filled.fit]

theorem prints_noList (blank : α) (fill : Filler α) (old : Option (List α)) :
    Prints n (fillList blank fill) old nullText none :=
  ⟨reads_null n, rfl⟩

theorem fillItems_blank {blank : α} {fill : Filler α} {texts : List (List Char)} {items : List α}
    (h : List.Forall₂ (Prints n fill blank) texts items) :
    fillItems blank fill [] texts = .fit items := by
  induction h with
  | nil => rfl
  | cons hfirst _ ih =>
      rw [fillItems]
      simp only [List.head?_nil, Option.getD_none, List.tail_nil, hfirst.fills, ih]
      rfl

/-- A list is decoded item by item. -/
theorem prints_items {blank : α} {fill : Filler α} {texts : List (List Char)} {items : List α}
    (h : List.Forall₂ (Prints n fill blank) texts items) (hn : n ≤ maxHeight) :
    Prints (n + 1) (fillList blank fill) none (arrayText texts) (some items) := by
  have hreads : ∀ t ∈ texts, Reads n t := by
    induction h with
    | nil => simp
    | cons hfirst _ ih => exact List.forall_mem_cons.mpr ⟨hfirst.reads, ih⟩
  refine ⟨reads_arrayText hreads, ?_⟩
  have hnull : isNullText (arrayText texts) = false := rfl
  rw [fillList, hnull, items?_arrayText hreads hn]
  simp only [Option.getD_none, fillItems_blank h]
  rfl

/-- A list that may be missing, of items that each have one text. -/
theorem prints_list {blank : α} {fill : Filler α} {f : α → List Char} {list : Option (List α)}
    (h : ∀ a ∈ list.getD [], Prints n fill blank (f a) a) (hn : n ≤ maxHeight) :
    Prints (n + 1) (fillList blank fill) none (listText f list) list := by
  cases list with
  | none => exact prints_noList blank fill none
  | some items =>
      refine prints_items ?_ hn
      rw [List.forall₂_map_left_iff]
      exact List.forall₂_same.mpr h

/-! ## Printed records -/

theorem Prints.field {get : σ → α} {set : σ → α → σ} {fill : Filler α} {name : String} {old : σ}
    {t : List Char} {v : α} (h : Prints n fill (get old) t v) :
    Prints n (field name get set fill).fill old t (set old v) := by
  refine ⟨h.reads, ?_⟩
  simp only [Json.field, h.fills]
  rfl

/-- Members that are printed one by one, each of this height at most, and the record that is built
from them field by field. -/
inductive Builds (n : Nat) :
    List (RecordField σ) → List (Option (String × List Char)) → σ → σ → Prop
  | nil {v} : Builds n [] [] v v
  | absent {f fields members old v} : Builds n fields members old v →
      Builds n (f :: fields) (none :: members) old v
  | written {f fields members t old next v} : Prints n f.fill old t next →
      Builds n fields members next v → Builds n (f :: fields) (some (f.name, t) :: members) old v

namespace Builds

theorem field {get : σ → α} {set : σ → α → σ} {fill : Filler α} {name : String}
    {fields : List (RecordField σ)} {members : List (Option (String × List Char))}
    {old v : σ} {t : List Char} {a : α} (h : Prints n fill (get old) t a)
    (hrest : Builds n fields members (set old a) v) :
    Builds n (Json.field name get set fill :: fields) (member name t :: members) old v :=
  .written (f := Json.field name get set fill) h.field hrest

/-- A text member that is left out when it is empty. -/
theorem nonEmpty {get : σ → α} {set : σ → α → σ} {fill : Filler α} {name : String}
    {fields : List (RecordField σ)} {members : List (Option (String × List Char))}
    {old v : σ} {s : String} {a : α} (h : Prints n fill (get old) (stringText s) a)
    (hempty : s = "" → set old a = old) (hrest : Builds n fields members (set old a) v) :
    Builds n (Json.field name get set fill :: fields) (nonEmptyMember name s :: members) old v := by
  unfold nonEmptyMember
  split
  · -- left out, so that the field keeps the empty text of the blank value
    rename_i hs
    rw [hempty hs] at hrest
    exact .absent hrest
  · exact .written (f := Json.field name get set fill) h.field hrest

theorem nonEmptyText {get : σ → String} {set : σ → String → σ} {name : String}
    {fields : List (RecordField σ)} {members : List (Option (String × List Char))}
    {old v : σ} {s : String} (hold : set old "" = old)
    (hrest : Builds n fields members (set old s) v) :
    Builds n (Json.field name get set fillString :: fields) (nonEmptyMember name s :: members) old
      v :=
  .nonEmpty (prints_string s _) (fun hempty => hempty ▸ hold) hrest

/-- A member that is left out when it is missing. -/
theorem present {get : σ → Option α} {set : σ → Option α → σ} {fill : Filler α} {name : String}
    {fields : List (RecordField σ)} {members : List (Option (String × List Char))} {blank : α}
    {f : α → List Char} {old v : σ} {a : Option α} (hget : get old = none)
    (hold : set old none = old)
    (ha : ∀ x ∈ a, Prints n fill blank (f x) x ∧ isNullText (f x) = false)
    (hrest : Builds n fields members (set old a) v) :
    Builds n (Json.field name get set (fillOption blank fill) :: fields)
      (presentMember name f a :: members) old v := by
  cases a with
  | none =>
      rw [hold] at hrest
      exact .absent hrest
  | some x =>
      obtain ⟨hx, hnull⟩ := ha x rfl
      exact .written (f := Json.field name get set (fillOption blank fill))
        (Prints.field (hget ▸ prints_present hx hnull)) hrest

end Builds

theorem fieldNamed?_of_mem {fields : List (RecordField σ)} (hnodup : (fields.map (·.name)).Nodup)
    {f : RecordField σ} (hf : f ∈ fields) : fieldNamed? fields f.name = some f := by
  have hfind : fields.find? (·.name == f.name) = some f := by
    induction fields with
    | nil => cases hf
    | cons g fields ih =>
        obtain ⟨hnew, hrest⟩ := List.nodup_cons.mp hnodup
        rcases List.mem_cons.mp hf with rfl | hf
        · simp
        · have hne : g.name ≠ f.name := fun e => hnew (List.mem_map.mpr ⟨f, hf, e.symm⟩)
          rw [List.find?_cons_of_neg (by simpa using hne), ih hrest hf]
  rw [fieldNamed?, hfind]
  rfl

theorem Builds.fillMembers {all fields : List (RecordField σ)}
    (hnodup : (all.map (·.name)).Nodup) (hfields : ∀ f ∈ fields, f ∈ all)
    {members : List (Option (String × List Char))} {old v : σ}
    (h : Builds n fields members old v) :
    fillMembers all old (members.filterMap id) = .fit v ∧
      ∀ m ∈ members.filterMap id, Reads n m.2 := by
  induction h with
  | nil => exact ⟨rfl, by simp⟩
  | absent _ ih => exact ih fun f hf => hfields f (List.mem_cons_of_mem _ hf)
  | @written f fields members t old next v hfirst _ ih =>
      -- the first member finds its field, and the others go on from what it has filled
      obtain ⟨hfill, hreads⟩ := ih fun f hf => hfields f (List.mem_cons_of_mem _ hf)
      have hmembers : (some (f.name, t) :: members).filterMap id =
          (f.name, t) :: members.filterMap id := rfl
      rw [hmembers]
      refine ⟨?_, List.forall_mem_cons.mpr ⟨hfirst.reads, hreads⟩⟩
      rw [Json.fillMembers, fieldNamed?_of_mem hnodup (hfields f List.mem_cons_self)]
      simp only [hfirst.fills, Filled.fit] at hfill ⊢
      rw [hfill]
      rfl

/-- **A record that is printed member by member is decoded field by field.** -/
theorem Builds.prints {fields : List (RecordField σ)} (hnodup : (fields.map (·.name)).Nodup)
    {members : List (Option (String × List Char))} {old v : σ} (h : Builds n fields members old v)
    (hn : n ≤ maxHeight) : Prints (n + 1) (fillRecord fields) old (record members) v := by
  obtain ⟨hfill, hreads⟩ := h.fillMembers hnodup fun _ hf => hf
  refine ⟨reads_objectText hreads, ?_⟩
  have hnull : isNullText (record members) = false := rfl
  rw [fillRecord, hnull, record, members?_objectText hreads hn]
  exact hfill

/-! ## What decoded values have -/

/-- A property that decoding keeps, whatever text of this height at most is decoded. -/
def Keeps (n : Nat) (P : α → Prop) (fill : Filler α) : Prop :=
  ∀ old t, IsText n t → P old → P (fill old t).value

theorem Keeps.of_le {m : Nat} (hle : m ≤ n) {P : α → Prop} {fill : Filler α} (h : Keeps n P fill) :
    Keeps m P fill :=
  fun old t ht => h old t (ht.mono hle)

theorem Keeps.decode {P : α → Prop} {fill : Filler α} (h : Keeps maxHeight P fill) {blank v : α}
    (hblank : P blank) {t : List Char} (hdecode : decode? blank fill t = some v) : P v := by
  have hvalue : P (decodeFilled blank fill t).value := by
    unfold decodeFilled
    split
    · rename_i hdocument
      exact h _ _ (isText_of_document hdocument) hblank
    · exact hblank
  unfold decode? at hdecode
  simp only at hdecode
  split at hdecode
  · exact Option.some.inj hdecode ▸ hvalue
  · cases hdecode

theorem Keeps.decodeFirst {P : α → Prop} {fill : Filler α} (h : Keeps maxHeight P fill)
    {blank v : α} (hblank : P blank) {t : List Char}
    (hdecode : decodeFirst? blank fill t = some v) : P v := by
  unfold decodeFirst? at hdecode
  split at hdecode
  · rename_i value rest hsplit
    simp only at hdecode
    split at hdecode
    · exact Option.some.inj hdecode ▸ h _ _ (isText_of_splitFirst hsplit).1 hblank
    · cases hdecode
  · cases hdecode

theorem keeps_trivial (fill : Filler α) : Keeps n (fun _ => True) fill :=
  fun _ _ _ _ => trivial

theorem keeps_int : Keeps n (fun n => fitsWord n = true) fillInt := by
  intro old t _ hold
  unfold fillInt
  split
  · exact hold
  · split
    · exact hold
    · split
      · rename_i hread
        exact Text.fitsWord_of_readNumeral hread
      · exact hold

/-- A raw field that is absent or holds one value of this height at most. -/
def IsRaw (n : Nat) (raw : String) : Prop := raw = "" ∨ IsText n raw.toList

theorem keeps_raw : Keeps n (IsRaw n) fillRaw := by
  intro old t ht _
  exact .inr (by simpa [fillRaw, Filled.fit] using ht)

theorem Keeps.option {P : α → Prop} {fill : Filler α} (h : Keeps n P fill) {blank : α}
    (hblank : P blank) : Keeps n (fun o => ∀ a ∈ o, P a) (fillOption blank fill) := by
  intro old t ht hold
  unfold fillOption
  split
  · simp [Filled.fit]
  · intro a ha
    obtain rfl := Option.some.inj ha
    refine h _ _ ht ?_
    cases old with
    | none => exact hblank
    | some a => exact hold a rfl

theorem keeps_items {P : α → Prop} {fill : Filler α} (h : Keeps n P fill) {blank : α}
    (hblank : P blank) {texts : List (List Char)} (htexts : ∀ t ∈ texts, IsText n t) {old : List α}
    (hold : ∀ a ∈ old, P a) : ∀ a ∈ (fillItems blank fill old texts).value, P a := by
  induction texts generalizing old with
  | nil => simp [fillItems, Filled.fit]
  | cons t texts ih =>
      obtain ⟨ht, htexts⟩ := List.forall_mem_cons.mp htexts
      rw [fillItems]
      refine List.forall_mem_cons.mpr
        ⟨h _ _ ht ?_, ih htexts fun a ha => hold a (List.mem_of_mem_tail ha)⟩
      cases old with
      | nil => exact hblank
      | cons a old => exact hold a List.mem_cons_self

theorem Keeps.list {P : α → Prop} {fill : Filler α} (h : Keeps maxHeight P fill) {blank : α}
    (hblank : P blank) :
    Keeps n (fun l : Option (List α) => ∀ a ∈ l.getD [], P a) (fillList blank fill) := by
  intro old t _ hold
  unfold fillList
  split
  · simp [Filled.fit]
  · split
    · rename_i hitems
      exact keeps_items h hblank (isText_of_items hitems) hold
    · exact hold

theorem Keeps.field {P : σ → Prop} {Q : α → Prop} {get : σ → α} {set : σ → α → σ}
    {fill : Filler α} (h : Keeps n Q fill) (name : String) (hget : ∀ v, P v → Q (get v))
    (hset : ∀ v a, P v → Q a → P (set v a)) : Keeps n P (field name get set fill).fill :=
  fun old t ht hold => hset old _ hold (h _ t ht (hget old hold))

/-- The values of a record are lower than the record. -/
theorem keeps_record {P : σ → Prop} {fields : List (RecordField σ)}
    (h : ∀ f ∈ fields, Keeps n P f.fill) : Keeps (n + 1) P (fillRecord fields) := by
  have hmembers : ∀ (members : List (String × List Char)), (∀ m ∈ members, IsText n m.2) →
      ∀ old, P old → P (fillMembers fields old members).value := by
    intro members
    induction members with
    | nil => exact fun _ _ hold => hold
    | cons m members ih =>
        intro htexts old hold
        obtain ⟨key, t⟩ := m
        obtain ⟨hm, hrest⟩ := List.forall_mem_cons.mp htexts
        rw [fillMembers]
        split
        · exact ih hrest old hold
        · rename_i f hf
          refine ih hrest _ (h f ?_ _ _ hm hold)
          -- the field is among them, whether its name is the same or folds to the same
          rw [fieldNamed?, Option.or_eq_some_iff] at hf
          rcases hf with hf | ⟨-, hf⟩ <;> exact List.mem_of_find?_eq_some hf
  intro old t ht hold
  unfold fillRecord
  split
  · exact hold
  · split
    · rename_i hread
      exact hmembers _ (isText_of_members ht hread) old hold
    · exact hold

end ReviewQueue.Json
