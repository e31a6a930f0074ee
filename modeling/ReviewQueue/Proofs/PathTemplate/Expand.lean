import Mathlib.Data.List.Nodup
import ReviewQueue.Proofs.PathTemplate.Matcher

/-!
# What a template expands to, and where its values stand

A delimited template expands to its literal text with every value spelled in unreserved characters
and escapes. The positions noted on the way through that text cut out the spelling of each variable
as it stands there, and of a variable that occurs more than once the first one.

* `expandSegments_eq_ok_iff` — when an expansion succeeds, and to which text;
* `find?_notes` — the piece that is captured first for a variable is the spelling of its value.
-/

namespace ReviewQueue.PathTemplate

/-! ## Spelled values -/

theorem IsValue.append {first second : List Char} (hfirst : IsValue first)
    (hsecond : IsValue second) : IsValue (first ++ second) := by
  induction hfirst with
  | nil => exact hsecond
  | plain hc _ ih => exact .plain hc ih
  | escape ha hb _ ih => exact .escape ha hb ih

theorem IsValue.flatMap {α : Type} {f : α → List Char} {items : List α}
    (h : ∀ a ∈ items, IsValue (f a)) : IsValue (items.flatMap f) := by
  induction items with
  | nil => exact .nil
  | cons a items ih =>
      exact (h a List.mem_cons_self).append (ih fun b hb => h b (List.mem_cons_of_mem _ hb))

theorem isHex_upperHex {d : Nat} (h : d < 16) : isHex (upperHex d) = true := by
  have hall : ∀ d < 16, isHex (upperHex d) = true := by decide
  exact hall d h

theorem isValue_escapeByte {b : Nat} (h : b < 256) : IsValue (escapeByte b) :=
  .escape (isHex_upperHex (by omega)) (isHex_upperHex (by omega)) .nil

theorem lt_of_mem_codeBytes {c : Char} {b : Nat} (h : b ∈ codeBytes c) : b < 256 := by
  have hc : c.toNat < 0x110000 := by
    rcases c.valid with hlow | ⟨-, hhigh⟩
    · exact Nat.lt_of_lt_of_le hlow (by decide)
    · exact hhigh
  have hmem := (List.mem_filter.mp h).1
  simp only [List.mem_cons, List.not_mem_nil, or_false] at hmem
  omega

theorem isValue_escapeChar (c : Char) : IsValue (escapeChar .simple c) := by
  unfold escapeChar
  split
  · rename_i hc
    exact .plain (by simpa [Operator.allows, Operator.keepsReserved] using hc) .nil
  · exact .flatMap fun b hb => isValue_escapeByte (lt_of_mem_codeBytes hb)

/-- How the value of a variable is spelled where no reserved character may stand. -/
def spelled (values : Values) (name : List Char) : List Char :=
  match lookup? values name with
  | none => []
  | some value => value.toList.flatMap (escapeChar .simple)

theorem isValue_spelled (values : Values) (name : List Char) : IsValue (spelled values name) := by
  unfold spelled
  split
  · exact .nil
  · exact .flatMap fun c _ => isValue_escapeChar c

/-! ## Expansion -/

/-- A value that can be expanded: no character of it is the replacement character. -/
def IsClean (values : Values) (name : List Char) : Prop :=
  ∀ value, lookup? values name = some value → Text.replacement ∉ value.toList

theorem escapeFrom_eq_ok_iff {op : Operator} {pos : Nat} {s text : List Char} :
    escapeFrom op pos (s.map some) = .ok text ↔
      Text.replacement ∉ s ∧ text = s.flatMap (escapeChar op) := by
  induction s generalizing pos text with
  | nil => simp [escapeFrom, eq_comm]
  | cons c s ih =>
      by_cases hc : c = Text.replacement
      · simp [escapeFrom, hc]
      · have hc' : Text.replacement ≠ c := fun e => hc e.symm
        simp only [List.map_cons, escapeFrom, if_neg hc, List.mem_cons, not_or, hc',
          not_false_eq_true, true_and, List.flatMap_cons]
        -- a replacement character behind this one keeps the whole text from being escaped
        cases hrest : escapeFrom op (pos + c.utf8Size) (s.map some) with
        | error e =>
            have hnone := mt ih.mpr (by rw [hrest]; simp : escapeFrom op (pos + c.utf8Size)
              (s.map some) ≠ .ok (s.flatMap (escapeChar op)))
            simp only [and_true] at hnone
            simp [Except.map, hnone]
        | ok more =>
            obtain ⟨hclean, rfl⟩ := ih.mp hrest
            simp [Except.map, hclean, eq_comm]

theorem expandSegment_simple {values : Values} {name text : List Char} :
    expandSegment values (.expression .simple [{ name }]) = .ok text ↔
      IsClean values name ∧ text = spelled values name := by
  unfold IsClean spelled
  simp only [expandSegment, expandVariables]
  cases hvalue : lookup? values name with
  | none => simp [eq_comm]
  | some value =>
      have hlimited : limited { name } value = value.toList.map some := rfl
      have hescape (text : List Char) :
          escapeFrom .simple 0 (value.toList.map some) = .ok text ↔
            Text.replacement ∉ value.toList ∧ text = value.toList.flatMap (escapeChar .simple) :=
        escapeFrom_eq_ok_iff
      simp only [expandVariable, hlimited, Operator.isNamed, Operator.opening, if_true,
        Bool.false_eq_true, if_false, Option.some.injEq, forall_eq']
      cases hfrom : escapeFrom .simple 0 (value.toList.map some) with
      | error e =>
          have hnone := mt (hescape text).mpr (by rw [hfrom]; simp)
          simpa [Except.map, bind, Except.bind] using hnone
      | ok more =>
          obtain ⟨hclean, rfl⟩ := (hescape more).mp hfrom
          simp [Except.map, bind, Except.bind, pure, Except.pure, hclean, eq_comm]

theorem expandSegments_cons {values : Values} {segment : Segment} {rest : List Segment}
    {text : List Char} :
    expandSegments values (segment :: rest) = .ok text ↔
      ∃ first second, expandSegment values segment = .ok first ∧
        expandSegments values rest = .ok second ∧ text = first ++ second := by
  rw [expandSegments]
  cases expandSegment values segment with
  | error e => simp [bind, Except.bind]
  | ok first =>
      cases expandSegments values rest with
      | error e => simp [bind, Except.bind]
      | ok second => simp [bind, Except.bind, pure, Except.pure, eq_comm]

/-- A delimited template expands when all its values do, and then to the text that spells them. -/
theorem expandSegments_eq_ok_iff (values : Values) {segments : List Segment}
    (hdelimited : Delimited segments) (text : List Char) :
    expandSegments values segments = .ok text ↔
      (∀ name ∈ names ⟨segments⟩, IsClean values name) ∧
        text = spelling (spelled values) segments := by
  induction hdelimited generalizing text with
  | nil => simp [expandSegments, names, spelling, eq_comm]
  | literal _ ih =>
      rw [expandSegments_cons]
      simp only [expandSegment, ih, Except.ok.injEq, names, List.flatMap_cons, spelling,
        List.nil_append]
      constructor
      · rintro ⟨_, _, rfl, ⟨hclean, rfl⟩, rfl⟩
        exact ⟨hclean, rfl⟩
      · rintro ⟨hclean, rfl⟩
        exact ⟨_, _, rfl, ⟨hclean, rfl⟩, rfl⟩
  | @last name =>
      rw [expandSegments_cons]
      simp [expandSegment_simple, expandSegments, names, spelling, and_assoc]
  | @inner name _ _ _ ih =>
      rw [expandSegments_cons]
      simp only [expandSegment_simple, ih]
      simp only [names, spelling, List.flatMap_cons, List.flatMap_nil, List.map_cons,
        List.map_nil, List.append_nil, List.cons_append, List.nil_append, List.mem_cons,
        forall_eq_or_imp]
      constructor
      · rintro ⟨_, _, ⟨hfirst, rfl⟩, ⟨hclean, rfl⟩, rfl⟩
        exact ⟨⟨hfirst, hclean⟩, rfl⟩
      · rintro ⟨⟨hfirst, hclean⟩, rfl⟩
        exact ⟨_, _, ⟨hfirst, rfl⟩, ⟨hclean, rfl⟩, rfl⟩

/-! ## Captured pieces -/

namespace Captures

/-- The variables that positions were noted for. -/
def keys (captures : Captures) : List (List Char) := captures.map (·.1)

/-- The positions that were noted for a variable. -/
def positions (captures : Captures) (key : List Char) : List Nat :=
  ((captures.find? (·.1 = key)).map (·.2)).getD []

theorem find?_note_self (captures : Captures) (key : List Char) (pos : Nat) :
    (captures.note key pos).find? (·.1 = key) = some (key, captures.positions key ++ [pos]) := by
  induction captures with
  | nil => simp [note, positions]
  | cons entry captures ih =>
      by_cases hkey : entry.1 = key
      · simp [note, positions, hkey]
      · rw [note, if_neg hkey, List.find?_cons_of_neg (by simpa using hkey), ih]
        simp [positions, hkey]

theorem find?_note_of_ne (captures : Captures) {key other : List Char} (hne : other ≠ key)
    (pos : Nat) :
    (captures.note key pos).find? (·.1 = other) = captures.find? (·.1 = other) := by
  induction captures with
  | nil => simp [note, hne.symm]
  | cons entry captures ih =>
      by_cases hkey : entry.1 = key
      · simp [note, hkey, hne.symm]
      · rw [note, if_neg hkey, List.find?_cons, List.find?_cons, ih]

/-- Where a piece starts and stops is noted behind what was noted before. -/
theorem find?_note_both (captures : Captures) (key : List Char) (start stop : Nat) :
    ((captures.note key start).note key stop).find? (·.1 = key) =
      some (key, captures.positions key ++ [start, stop]) := by
  rw [find?_note_self, positions, find?_note_self]
  simp

theorem keys_note (captures : Captures) (key : List Char) (pos : Nat) :
    (captures.note key pos).keys =
      if key ∈ captures.keys then captures.keys else captures.keys ++ [key] := by
  induction captures with
  | nil => rfl
  | cons entry captures ih =>
      by_cases hkey : entry.1 = key
      · simp [note, keys, hkey]
      · have hkey' : key ≠ entry.1 := Ne.symm hkey
        rw [note, if_neg hkey]
        simp only [keys, List.map_cons] at ih ⊢
        rw [ih]
        by_cases hmem : key ∈ captures.map (·.1)
        · simp [hmem]
        · simp [hmem, hkey']

theorem nodup_note {captures : Captures} (h : captures.keys.Nodup) (key : List Char)
    (pos : Nat) : (captures.note key pos).keys.Nodup := by
  rw [keys_note]
  split
  · exact h
  · rename_i hnew
    rw [← List.concat_eq_append]
    exact h.concat hnew

theorem put_of_not_mem {captures : Captures} {key : List Char} (h : key ∉ captures.keys)
    (positions : List Nat) : captures.put key positions = captures ++ [(key, positions)] := by
  induction captures with
  | nil => rfl
  | cons entry captures ih =>
      simp only [keys, List.map_cons, List.mem_cons, not_or] at h
      rw [put, if_neg (fun e => h.1 e.symm), ih h.2, List.cons_append]

theorem update_of_nodup (older : Captures) {newer : Captures} (h : (keys (older ++ newer)).Nodup) :
    older.update newer = older ++ newer := by
  induction newer generalizing older with
  | nil => simp [update]
  | cons entry newer ih =>
      have hkeys : entry.1 ∉ older.keys := by
        intro hmem
        have hdisjoint := (List.nodup_append.mp (by simpa [keys] using h)).2.2
        exact hdisjoint _ hmem _ List.mem_cons_self rfl
      have hnext := ih (older ++ [entry]) (by simpa using h)
      rw [update, List.foldl_cons, put_of_not_mem hkeys]
      simpa [update] using hnext

end Captures

theorem firstPiece?_of_append (before piece after : List Char) (more : List Nat) :
    firstPiece? (before ++ (piece ++ after))
        (before.length :: (before.length + piece.length) :: more) = some piece := by
  simp [firstPiece?]

theorem spelling_variable (value : List Char → List Char) (name : List Char)
    (rest : List Segment) :
    spelling value (.expression .simple [{ name }] :: rest) =
      value name ++ spelling value rest := by
  simp [spelling]

section Notes

variable (value : List Char → List Char) {segments : List Segment}

/-- The step over one variable: its piece is noted, and the notes go on behind it. -/
theorem notes_variable (name : List Char) (rest : List Segment) (pos : Nat)
    (captures : Captures) :
    notes value pos captures (.expression .simple [{ name }] :: rest) =
      notes value (pos + (value name).length)
        ((captures.note name pos).note name (pos + (value name).length)) rest := rfl

theorem nodup_notes (hdelimited : Delimited segments) {captures : Captures}
    (h : captures.keys.Nodup) (pos : Nat) : (notes value pos captures segments).keys.Nodup := by
  induction hdelimited generalizing captures pos with
  | nil => exact h
  | literal _ ih => exact ih h _
  | last => exact Captures.nodup_note (Captures.nodup_note h _ _) _ _
  | inner _ ih =>
      rw [notes_variable]
      exact ih (Captures.nodup_note (Captures.nodup_note h _ _) _ _) _

/-- The positions of a piece stay the first ones, whatever is noted behind them. -/
theorem find?_notes_of_noted (hdelimited : Delimited segments) {captures : Captures}
    {name : List Char} {start stop : Nat} {more : List Nat}
    (h : captures.find? (·.1 = name) = some (name, start :: stop :: more)) (pos : Nat) :
    ∃ more', (notes value pos captures segments).find? (·.1 = name) =
      some (name, start :: stop :: more') := by
  -- whichever variable comes next, what it notes goes behind the first two positions
  have hstep (captures : Captures) (more : List Nat) (other : List Char) (pos pos' : Nat)
      (h : captures.find? (·.1 = name) = some (name, start :: stop :: more)) :
      ∃ more', ((captures.note other pos).note other pos').find? (·.1 = name) =
        some (name, start :: stop :: more') := by
    by_cases hname : name = other
    · subst hname
      rw [Captures.find?_note_both, Captures.positions, h]
      exact ⟨_, rfl⟩
    · rw [Captures.find?_note_of_ne _ hname, Captures.find?_note_of_ne _ hname]
      exact ⟨more, h⟩
  induction hdelimited generalizing captures more pos with
  | nil => exact ⟨more, h⟩
  | literal _ ih => exact ih h _
  | last => exact hstep captures more _ _ _ h
  | inner _ ih =>
      obtain ⟨more', hmore⟩ := hstep captures more _ pos _ h
      exact ih hmore _

/-- **The piece that is captured first for a variable is the spelling of its value.** -/
theorem find?_notes (hdelimited : Delimited segments) {captures : Captures} {name : List Char}
    (hname : name ∈ names ⟨segments⟩) (hnew : captures.find? (·.1 = name) = none)
    (before : List Char) :
    ∃ positions, (notes value before.length captures segments).find? (·.1 = name) =
        some (name, positions) ∧
      firstPiece? (before ++ spelling value segments) positions = some (value name) := by
  have hself (captures : Captures) (pos stop : Nat) (hnew : captures.find? (·.1 = name) = none) :
      ((captures.note name pos).note name stop).find? (·.1 = name) =
        some (name, [pos, stop]) := by
    rw [Captures.find?_note_both, Captures.positions, hnew]
    rfl
  induction hdelimited generalizing captures before with
  | nil => exact absurd hname List.not_mem_nil
  | @literal text rest _ ih =>
      have hrest := ih hname hnew (before ++ text)
      rwa [List.length_append, List.append_assoc] at hrest
  | @last other =>
      obtain rfl : name = other := by simpa [names] using hname
      refine ⟨_, hself captures _ _ hnew, ?_⟩
      rw [spelling_variable]
      exact firstPiece?_of_append before (value name) _ []
  | @inner other text rest hrest ih =>
      rw [notes_variable, spelling_variable]
      by_cases hother : name = other
      · -- the piece stands here, and no later one of the same variable comes before it
        subst hother
        obtain ⟨more, hmore⟩ := find?_notes_of_noted value hrest (hself captures _ _ hnew)
          (before.length + (value name).length)
        exact ⟨_, hmore, firstPiece?_of_append before (value name) _ more⟩
      · -- another variable is noted here, and the piece stands further behind
        have hnext : ((captures.note other before.length).note other
            (before.length + (value other).length)).find? (·.1 = name) = none := by
          rw [Captures.find?_note_of_ne _ hother, Captures.find?_note_of_ne _ hother, hnew]
        have hmem : name ∈ names ⟨.literal ('/' :: text) :: rest⟩ := by
          simpa [names, hother] using hname
        have hlater := ih hmem hnext (before ++ value other)
        rwa [List.length_append, List.append_assoc] at hlater

end Notes

end ReviewQueue.PathTemplate
