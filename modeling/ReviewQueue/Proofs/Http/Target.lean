import Mathlib.Data.List.TakeWhile
import ReviewQueue.Http.Message
import ReviewQueue.Proofs.Route.RoundTrip

/-!
# Targets made of segments and of names

A path that is put together from segments is clean and has no query, as long as no segment holds a
mark that ends it and none is empty, `.` or `..`. A name is a text of letters, digits, `-` and `_`,
so that a name is a segment, and stands for its bytes.

* `splitOn_ofSegments` — such a path is cut into its segments;
* `clean_ofSegments`, `segments_ofSegments` — what a service makes of it;
* `isClean_ofNames`, `segments_ofNames`, `queryValue_ofNames` — the same for names.
-/

namespace ReviewQueue

/-- The characters of names. -/
def isNameChar (c : Char) : Bool := c.isAlphanum || c == '-' || c == '_'

/-- A text of letters, digits, `-` and `_`, which is not empty. -/
def IsName (s : String) : Prop := s ≠ "" ∧ ∀ c ∈ s.toList, isNameChar c = true

-- Tries the characters of the text, where an instance for all characters would be found first.
instance (s : String) : Decidable (IsName s) :=
  @instDecidableAnd _ _ _ (List.decidableBAll _ _)

/-- What holds of all characters of names can be checked one by one. -/
theorem forall_isNameChar {p : Char → Bool}
    (h : ∀ n < 128, (!isNameChar (Char.ofNat n) || p (Char.ofNat n)) = true) {c : Char}
    (hc : isNameChar c = true) : p c = true := by
  have hlow : c.toNat < 128 := by
    unfold isNameChar Char.isAlphanum Char.isAlpha Char.isUpper Char.isLower Char.isDigit at hc
    simp only [Bool.or_eq_true, Bool.and_eq_true, decide_eq_true_eq, beq_iff_eq,
      UInt32.le_iff_toNat_le, ge_iff_le] at hc
    show c.val.toNat < 128
    rcases hc with (((hc | hc) | hc) | rfl) | rfl
    · exact Nat.lt_of_le_of_lt hc.2 (by decide)
    · exact Nat.lt_of_le_of_lt hc.2 (by decide)
    · exact Nat.lt_of_le_of_lt hc.2 (by decide)
    · decide
    · decide
  have hall := h c.toNat hlow
  rw [Char.ofNat_toNat, hc] at hall
  simpa using hall

theorem ne_of_isNameChar {c mark : Char} (hmark : isNameChar mark = false)
    (hc : isNameChar c = true) : c ≠ mark := by
  rintro rfl
  rw [hmark] at hc
  cases hc

theorem isAscii_of_isNameChar {c : Char} (h : isNameChar c = true) : Route.IsAscii c :=
  of_decide_eq_true (forall_isNameChar (p := fun c => decide (Route.IsAscii c)) (by decide) h)

theorem isUnreserved_of_isNameChar {c : Char} (h : isNameChar c = true) :
    isUnreserved c = true :=
  forall_isNameChar (by decide) h

theorem IsName.isAscii {s : String} (h : IsName s) : ∀ c ∈ s.toList, Route.IsAscii c :=
  fun c hc => isAscii_of_isNameChar (h.2 c hc)

theorem IsName.toList_ne_nil {s : String} (h : IsName s) : s.toList ≠ [] := by
  intro hnil
  exact h.1 (String.toList_inj.mp (by rw [hnil]; rfl))

/-- The number of a submission that can be stored is a name. -/
theorem isName_ofInt (n : Int) : IsName (Text.ofInt n) := by
  refine ⟨Route.ofInt_ne_empty n, fun c hc => ?_⟩
  rw [Text.ofInt, String.toList_ofList] at hc
  rcases Text.mem_numeral hc with rfl | hdigit
  · decide
  · have hlow : c.toNat < 128 := by
      simp only [Text.isDigit, Bool.and_eq_true, decide_eq_true_eq] at hdigit
      omega
    have hall : ∀ n < 128, (!Text.isDigit (Char.ofNat n) || isNameChar (Char.ofNat n)) = true := by
      decide
    have hname := hall c.toNat hlow
    rw [Char.ofNat_toNat, hdigit] at hname
    simpa using hname

namespace Http.Target

/-! ## Segments -/

/-- A text that stands in a path as one segment, and that cleaning keeps. -/
structure IsSegment (s : List Char) : Prop where
  ne_nil : s ≠ []
  ne_dot : s ≠ ['.']
  ne_dots : s ≠ ['.', '.']
  no_slash : '/' ∉ s
  no_query : '?' ∉ s

/-- The path with the given segments, as they are spelled in it. -/
def ofSegments (segments : List (List Char)) : List Char := segments.flatMap ('/' :: ·)

section Segments

variable {segs : List (List Char)}

theorem splitOn_append {first : List Char} (hfirst : '/' ∉ first) (h : ∀ s ∈ segs, '/' ∉ s) :
    (first ++ ofSegments segs).splitOn '/' = first :: segs := by
  induction segs generalizing first with
  | nil => rw [ofSegments, List.flatMap_nil, List.append_nil, List.splitOn_eq_singleton hfirst]
  | cons second segs ih =>
      obtain ⟨hsecond, hrest⟩ := List.forall_mem_cons.mp h
      rw [ofSegments, List.flatMap_cons, List.cons_append,
        List.splitOn_append_cons_of_beq _ _ (by decide), List.splitOn_eq_singleton hfirst]
      exact congrArg (first :: ·) (ih hsecond hrest)

/-- A path is cut into its segments, behind the empty text in front of its first slash. -/
theorem splitOn_ofSegments (h : ∀ s ∈ segs, '/' ∉ s) :
    (ofSegments segs).splitOn '/' = [] :: segs :=
  splitOn_append List.not_mem_nil h

theorem no_query_ofSegments (h : ∀ s ∈ segs, IsSegment s) : '?' ∉ ofSegments segs := by
  intro hmem
  obtain ⟨s, hs, hquery⟩ := List.mem_flatMap.mp hmem
  rcases List.mem_cons.mp hquery with hslash | hquery
  · exact absurd hslash (by decide)
  · exact (h s hs).no_query hquery

theorem path_ofSegments (h : ∀ s ∈ segs, IsSegment s) :
    path (.ofList (ofSegments segs)) = ofSegments segs := by
  rw [path, String.toList_ofList]
  refine List.takeWhile_eq_self_iff.mpr fun c hc => ?_
  have hne : c ≠ '?' := by
    rintro rfl
    exact no_query_ofSegments h hc
  simpa using hne

theorem segments_ofSegments (h : ∀ s ∈ segs, IsSegment s) :
    segments (ofSegments segs) = segs.map Route.unescape := by
  rw [segments, splitOn_ofSegments fun s hs => (h s hs).no_slash, List.tail_cons]

theorem resolve_segments (h : ∀ s ∈ segs, IsSegment s) (kept : List (List Char)) :
    resolve kept segs = kept.reverse ++ segs := by
  induction segs generalizing kept with
  | nil => simp [resolve]
  | cons s segs ih =>
      obtain ⟨hs, hrest⟩ := List.forall_mem_cons.mp h
      rw [resolve, if_neg (by simp [hs.ne_nil, hs.ne_dot]), if_neg hs.ne_dots, ih hrest]
      simp

/-- A path of segments is clean. -/
theorem clean_ofSegments (hne : segs ≠ []) (h : ∀ s ∈ segs, IsSegment s) :
    clean (ofSegments segs) = ofSegments segs := by
  have hresolve : resolve [] ((ofSegments segs).splitOn '/') = segs := by
    rw [splitOn_ofSegments fun s hs => (h s hs).no_slash, resolve, if_pos (by simp),
      resolve_segments h]
    rfl
  have hlast : (ofSegments segs).getLast? ≠ some '/' := by
    obtain ⟨front, last, rfl⟩ := segs.eq_nil_or_concat.resolve_left hne
    rw [List.concat_eq_append] at h ⊢
    have hsegment := h last (by simp)
    have hend := List.getLast_mem hsegment.ne_nil
    rw [ofSegments, List.flatMap_append, List.flatMap_cons, List.flatMap_nil, List.append_nil,
      List.getLast?_append, List.getLast?_cons, List.getLast?_eq_some_getLast hsegment.ne_nil]
    simp only [Option.getD_some, Option.some_or, ne_eq, Option.some.injEq]
    intro hslash
    exact hsegment.no_slash (hslash ▸ hend)
  unfold clean
  rw [hresolve]
  cases segs with
  | nil => exact absurd rfl hne
  | cons s segs =>
      simp only [if_neg hlast, List.append_nil]
      rfl

/-- A path of segments has no query. -/
theorem queryValue_ofSegments (h : ∀ s ∈ segs, IsSegment s) (name : String) :
    queryValue (.ofList (ofSegments segs)) name = "" := by
  have hquery : queryPart (.ofList (ofSegments segs)) = [] := by
    rw [queryPart, String.toList_ofList, List.dropWhile_eq_nil_iff]
    intro c hc
    have hne : c ≠ '?' := by
      rintro rfl
      exact no_query_ofSegments h hc
    simpa using hne
  rw [queryValue, hquery]
  rfl

end Segments

/-! ## Names -/

theorem isSegment_of_isName {s : String} (h : IsName s) : IsSegment s.toList := by
  have hno : ∀ mark, isNameChar mark = false → mark ∉ s.toList :=
    fun mark hmark hmem => ne_of_isNameChar hmark (h.2 mark hmem) rfl
  have hdot : ∀ t : List Char, '.' ∈ t → s.toList ≠ t := by
    rintro t ht rfl
    exact hno '.' (by decide) ht
  exact ⟨h.toList_ne_nil, hdot _ (by simp), hdot _ (by simp), hno _ (by decide), hno _ (by decide)⟩

/-- The path with the given segments. -/
def ofNames (names : List String) : List Char := names.flatMap fun n => '/' :: n.toList

variable {names : List String}

theorem mem_ofNames (h : ∀ n ∈ names, IsName n) {c : Char} (hc : c ∈ ofNames names) :
    c = '/' ∨ isNameChar c = true := by
  obtain ⟨n, hn, hmem⟩ := List.mem_flatMap.mp hc
  exact (List.mem_cons.mp hmem).imp id ((h n hn).2 c)

theorem not_mem_ofNames {mark : Char} (hslash : mark ≠ '/') (hmark : isNameChar mark = false)
    (h : ∀ n ∈ names, IsName n) : mark ∉ ofNames names := by
  intro hc
  rcases mem_ofNames h hc with heq | hname
  · exact hslash heq
  · rw [hmark] at hname
    cases hname

/-- Names are segments, spelled as they are. -/
theorem ofNames_eq (names : List String) :
    ofNames names = ofSegments (names.map String.toList) := by
  rw [ofSegments, List.flatMap_map]
  rfl

theorem isSegment_ofNames (h : ∀ n ∈ names, IsName n) :
    ∀ s ∈ names.map String.toList, IsSegment s :=
  List.forall_mem_map.mpr fun n hn => isSegment_of_isName (h n hn)

theorem unescape_name {s : List Char} (h : ∀ c ∈ s, isNameChar c = true) :
    Route.unescape s = Text.toBytes s := by
  induction s with
  | nil => rfl
  | cons c s ih =>
      obtain ⟨hc, hs⟩ := List.forall_mem_cons.mp h
      rw [Route.unescape_cons (ne_of_isNameChar (by decide) hc), ih hs]
      rfl

theorem path_ofNames (h : ∀ n ∈ names, IsName n) :
    path (.ofList (ofNames names)) = ofNames names := by
  rw [ofNames_eq]
  exact path_ofSegments (isSegment_ofNames h)

theorem segments_ofNames (h : ∀ n ∈ names, IsName n) :
    segments (ofNames names) = names.map fun n => Text.toBytes n.toList := by
  rw [ofNames_eq, segments_ofSegments (isSegment_ofNames h), List.map_map]
  exact List.map_congr_left fun n hn => unescape_name (h n hn).2

/-- A path of names is clean. -/
theorem isClean_ofNames (hne : names ≠ []) (h : ∀ n ∈ names, IsName n) :
    clean (ofNames names) = ofNames names := by
  rw [ofNames_eq]
  exact clean_ofSegments (by simpa using hne) (isSegment_ofNames h)

/-- A path of names has no query. -/
theorem queryValue_ofNames (h : ∀ n ∈ names, IsName n) (name : String) :
    queryValue (.ofList (ofNames names)) name = "" := by
  rw [ofNames_eq]
  exact queryValue_ofSegments (isSegment_ofNames h) name

end Http.Target
end ReviewQueue
