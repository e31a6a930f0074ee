import Mathlib.Data.List.Basic
import ReviewQueue.Proofs.PathTemplate.Expand
import ReviewQueue.Proofs.Text.Decimal
import ReviewQueue.Route

/-!
# Paths read back

A path that was built from values is read back by undoing their escapes. What the escapes stand for
is the bytes of a code point and not its UTF-8 form, so a value comes back as it was when it is
ASCII; the number of a submission always does.

* `match?_of_spelling` — the values that are read out of a path, one for each variable;
* `unescape_spelled` — an ASCII value comes back as its bytes;
* `default_path_read_back` — the paths of the default template.
-/

namespace ReviewQueue.Route

open PathTemplate

/-! ## Escapes undone -/

theorem unescape_cons {c : Char} (hc : c ≠ '%') (rest : List Char) :
    unescape (c :: rest) = String.utf8EncodeChar c ++ unescape rest := by
  match rest with
  | [] => simp [unescape]
  | [a] => simp [unescape]
  | a :: b :: rest => simp [unescape, hc]

theorem hexValue?_upperHex {d : Nat} (h : d < 16) : Json.hexValue? (upperHex d) = some d := by
  have hall : ∀ d < 16, Json.hexValue? (upperHex d) = some d := by decide
  exact hall d h

theorem unescape_escapeByte {b : Nat} (h : b < 256) (rest : List Char) :
    unescape (escapeByte b ++ rest) = UInt8.ofNat b :: unescape rest := by
  have hvalue : b / 16 * 16 + b % 16 = b := by omega
  show unescape ('%' :: upperHex (b / 16) :: upperHex (b % 16) :: rest) = _
  rw [unescape, hexValue?_upperHex (by omega), hexValue?_upperHex (by omega)]
  simp only [hvalue]

/-- A character that escapes give back: ASCII, and not the zero that escapes leave out. -/
def IsAscii (c : Char) : Prop := 1 ≤ c.toNat ∧ c.toNat ≤ 127

instance (c : Char) : Decidable (IsAscii c) := inferInstanceAs (Decidable (_ ∧ _))

theorem utf8EncodeChar_of_isAscii {c : Char} (h : IsAscii c) :
    String.utf8EncodeChar c = [UInt8.ofNat c.toNat] := by
  have hval : c.val.toNat ≤ 0x7F := h.2
  unfold String.utf8EncodeChar
  simp only [hval, if_true]
  rfl

theorem codeBytes_of_isAscii {c : Char} (h : IsAscii c) : codeBytes c = [c.toNat] := by
  obtain ⟨hlow, hhigh⟩ := h
  have h1 : c.toNat / 65536 = 0 := by omega
  have h2 : c.toNat / 256 % 256 = 0 := by omega
  have h3 : c.toNat % 256 = c.toNat := by omega
  have h4 : c.toNat ≠ 0 := by omega
  simp [codeBytes, h1, h2, h3, h4]

theorem unescape_escapeChar {c : Char} (h : IsAscii c) (rest : List Char) :
    unescape (escapeChar .simple c ++ rest) = String.utf8EncodeChar c ++ unescape rest := by
  unfold escapeChar
  split
  · rename_i hc
    have hunreserved : isUnreserved c = true := by
      simpa [Operator.allows, Operator.keepsReserved] using hc
    exact unescape_cons (not_mark_of_isUnreserved hunreserved).1 rest
  · rw [codeBytes_of_isAscii h, utf8EncodeChar_of_isAscii h, List.flatMap_cons, List.flatMap_nil,
      List.append_nil, unescape_escapeByte (by have := h.2; omega)]
    rfl

/-- An ASCII value comes back as its bytes. -/
theorem unescape_escaped {s : List Char} (h : ∀ c ∈ s, IsAscii c) :
    unescape (s.flatMap (escapeChar .simple)) = Text.toBytes s := by
  induction s with
  | nil => rfl
  | cons c s ih =>
      rw [List.flatMap_cons, unescape_escapeChar (h c List.mem_cons_self),
        ih fun d hd => h d (List.mem_cons_of_mem _ hd)]
      rfl

/-! ## Values read out of a path -/

/-- A path that spells a delimited template gives one value for each variable, in order. -/
theorem match?_of_spelling {template : String} {c : Char} {text : List Char}
    {rest : List Segment}
    (htemplate : PathTemplate.ofText template = .ok ⟨.literal (c :: text) :: rest⟩)
    (hdelimited : Delimited rest) {value : List Char → List Char}
    (hvalue : ∀ name, IsValue (value name)) :
    match? template (.ofList (spelling value (.literal (c :: text) :: rest))) =
      some ((names ⟨rest⟩).eraseDups.map fun name =>
        (String.ofList name, unescape (value name))) := by
  have hall : Delimited (.literal (c :: text) :: rest) := hdelimited.literal
  have hcaptures := captures?_of_delimited c text hdelimited hvalue
  have hnodup := @nodup_notes value _ hall [] List.nodup_nil 0
  simp only [Captures.update_of_nodup [] (by simpa using hnodup), List.nil_append] at hcaptures
  rw [match?, htemplate]
  simp only [String.toList_ofList, hcaptures, Option.map_some, Option.some.injEq]
  -- the literal in front adds no variable
  show (names ⟨rest⟩).eraseDups.filterMap _ = _
  rw [List.filterMap_eq_map_iff_forall_eq_some]
  intro name hname
  obtain ⟨positions, hfind, hpiece⟩ :=
    @find?_notes value _ hall [] name (List.mem_eraseDups.mp hname) rfl []
  simp only [List.length_nil, List.nil_append] at hfind hpiece
  simp [hfind, hpiece]

/-! ## ASCII bytes as a text -/

theorem decodeFirst_of_isAscii {c : Char} (h : IsAscii c) (rest : List UInt8) :
    Text.decodeFirst (UInt8.ofNat c.toNat :: rest) = some (some c, rest) := by
  obtain ⟨-, hhigh⟩ := h
  have hvalue : (UInt8.ofNat c.toNat).toNat = c.toNat := by
    simp [Nat.mod_eq_of_lt (show c.toNat < 256 by omega)]
  have hlow : UInt8.ofNat c.toNat < 0x80 := by
    rw [UInt8.lt_iff_toNat_lt, hvalue]
    exact Nat.lt_succ_of_le hhigh
  rw [Text.decodeFirst.eq_def]
  simp only [if_pos hlow, hvalue, Char.ofNat_toNat]

theorem toBytes_of_isAscii {s : List Char} (h : ∀ c ∈ s, IsAscii c) :
    Text.toBytes s = s.map fun c => UInt8.ofNat c.toNat := by
  induction s with
  | nil => rfl
  | cons c s ih =>
      rw [List.map_cons, ← ih fun d hd => h d (List.mem_cons_of_mem _ hd), Text.toBytes,
        List.flatMap_cons, utf8EncodeChar_of_isAscii (h c List.mem_cons_self)]
      rfl

theorem runes_toBytes {s : List Char} (h : ∀ c ∈ s, IsAscii c) :
    Text.runes (Text.toBytes s) = s.map some := by
  rw [toBytes_of_isAscii h, Text.runes, List.length_map]
  induction s with
  | nil => rfl
  | cons c s ih =>
      rw [List.map_cons, List.length_cons, Text.decodeAll,
        decodeFirst_of_isAscii (h c List.mem_cons_self)]
      simp only [List.map_cons, ih fun d hd => h d (List.mem_cons_of_mem _ hd)]

theorem lossy_toBytes {s : List Char} (h : ∀ c ∈ s, IsAscii c) :
    Text.lossy (Text.toBytes s) = .ofList s := by
  rw [Text.lossy, runes_toBytes h, List.map_map]
  simp [Function.comp_def]

theorem ofBytes?_toBytes {s : List Char} (h : ∀ c ∈ s, IsAscii c) :
    Text.ofBytes? (Text.toBytes s) = some (.ofList s) := by
  have hall : ∀ s : List Char, (s.map some).mapM id = some s := by
    intro s
    induction s with
    | nil => rfl
    | cons c s ih => simp [ih]
  rw [Text.ofBytes?, runes_toBytes h, hall, Option.map_some]

theorem isAscii_of_mem_ofInt {n : Int} : ∀ c ∈ (Text.ofInt n).toList, IsAscii c := by
  intro c h
  rw [Text.ofInt, String.toList_ofList] at h
  rcases Text.mem_numeral h with rfl | h
  · decide
  · simp only [Text.isDigit, Bool.and_eq_true, decide_eq_true_eq] at h
    exact ⟨by omega, by omega⟩

/-! ## The default template -/

/-- The pieces of the default template, behind its first literal. -/
def defaultRest : List Segment :=
  [.expression .simple [{ name := projectId.toList }], .literal "/batches/".toList,
    .expression .simple [{ name := batchId.toList }], .literal "/submissions/".toList,
    .expression .simple [{ name := submissionId.toList }]]

set_option maxRecDepth 4000 in
theorem ofText_default :
    PathTemplate.ofText defaultTemplate = .ok ⟨.literal "/projects/".toList :: defaultRest⟩ := rfl

theorem delimited_default : Delimited defaultRest := .inner (.literal (.inner (.literal .last)))

theorem names_default :
    names ⟨defaultRest⟩ = [projectId.toList, batchId.toList, submissionId.toList] := rfl

/-- A delimited template is expanded to its spelling, when its values are clean. -/
theorem build_of_delimited {template : String} {segments : List Segment}
    (htemplate : PathTemplate.ofText template = .ok ⟨segments⟩) (hdelimited : Delimited segments)
    {params : Params} {path : String} :
    build template params = .ok path ↔
      (∀ name ∈ names ⟨segments⟩, IsClean params name) ∧
        path = .ofList (spelling (spelled params) segments) := by
  have hexpand := expandSegments_eq_ok_iff params hdelimited
  rw [build, htemplate]
  simp only [expandRead, expand]
  cases hsegments : expandSegments params segments with
  | error position =>
      simp only [hsegments, reduceCtorEq, false_iff, not_and] at hexpand ⊢
      exact fun hclean _ => hexpand _ hclean rfl
  | ok text =>
      obtain ⟨hclean, rfl⟩ := (hexpand text).mp hsegments
      simp only [Except.ok.injEq]
      exact ⟨fun h => ⟨hclean, h.symm⟩, fun h => h.2.symm⟩

theorem build_default {params : Params} {path : String} :
    build defaultTemplate params = .ok path ↔
      (∀ name ∈ names ⟨defaultRest⟩, IsClean params name) ∧
        path = .ofList (spelling (spelled params) (.literal "/projects/".toList :: defaultRest)) :=
  build_of_delimited ofText_default delimited_default.literal

/-- What is read out of a path of the default template: what each of its three values is spelled
as, with the escapes undone. -/
theorem match?_default {params : Params} {path : String}
    (hbuild : build defaultTemplate params = .ok path) :
    match? defaultTemplate path =
      some ([projectId, batchId, submissionId].map fun name =>
        (name, unescape (spelled params name.toList))) := by
  obtain ⟨-, rfl⟩ := build_default.mp hbuild
  exact match?_of_spelling ofText_default delimited_default (isValue_spelled params)

theorem unescape_spelled {params : Params} {name value : String}
    (hvalue : lookup? params name.toList = some value) (h : ∀ c ∈ value.toList, IsAscii c) :
    unescape (spelled params name.toList) = Text.toBytes value.toList := by
  rw [spelled, hvalue]
  exact unescape_escaped h

/-- The number of a submission is read out of its path. -/
theorem readSubmissionId_default {params : Params} {path : String} {id : Int}
    (hid : lookup? params submissionId.toList = some (Text.ofInt id))
    (hbuild : build defaultTemplate params = .ok path) :
    readSubmissionId defaultTemplate path = .ok (Text.ofInt id) := by
  have hascii := isAscii_of_mem_ofInt (n := id)
  have hbytes := unescape_spelled hid hascii
  obtain ⟨b, bytes, hcons⟩ : ∃ b bytes, Text.toBytes (Text.ofInt id).toList = b :: bytes := by
    apply List.exists_cons_of_ne_nil
    rw [toBytes_of_isAscii hascii, Text.ofInt, String.toList_ofList]
    simpa using Text.numeral_ne_nil id
  have hfound : (match? defaultTemplate path).bind (·.find? (·.1 = submissionId)) =
      some (submissionId, Text.toBytes (Text.ofInt id).toList) := by
    rw [match?_default hbuild, ← hbytes]
    rfl
  rw [readSubmissionId, submissionIdBytes, hfound, hcons]
  simp only [Except.map, ← hcons, lossy_toBytes hascii, String.ofList_toList]

theorem lookup?_head (name : String) {value : String} (hvalue : value ≠ "") (rest : Params) :
    lookup? ((name, value) :: rest) name.toList = some value := by
  unfold lookup?
  rw [List.find?_cons_of_pos (by simp), Option.map_some]
  split
  · rename_i h
    exact absurd (Option.some.inj h) hvalue
  · rfl

theorem lookup?_tail {name other : String} (hne : other ≠ name) (value : String)
    (rest : Params) : lookup? ((other, value) :: rest) name.toList = lookup? rest name.toList := by
  unfold lookup?
  rw [List.find?_cons_of_neg]
  simpa [String.toList_inj] using hne

theorem ofInt_ne_empty (n : Int) : Text.ofInt n ≠ "" := by
  intro h
  have htext := congrArg String.toList h
  rw [Text.ofInt, String.toList_ofList] at htext
  exact Text.numeral_ne_nil n htext

/-- **A path of the default template can be read back.** Whenever it can be built, it matches, and
the number of the submission is read out of it; ASCII names of a project and a batch come back
too. -/
theorem default_path_read_back {project batch path : String} {id : Int}
    (hbuild : build defaultTemplate
      [(projectId, project), (batchId, batch), (submissionId, Text.ofInt id)] = .ok path) :
    (match? defaultTemplate path).isSome = true ∧
      readSubmissionId defaultTemplate path = .ok (Text.ofInt id) ∧
      (project ≠ "" → batch ≠ "" → (∀ c ∈ project.toList ++ batch.toList, IsAscii c) →
        match? defaultTemplate path =
          some ([(projectId, project), (batchId, batch), (submissionId, Text.ofInt id)].map
            fun p => (p.1, Text.toBytes p.2.toList))) := by
  generalize hparams : [(projectId, project), (batchId, batch), (submissionId, Text.ofInt id)] =
    params at hbuild
  have hid : lookup? params submissionId.toList = some (Text.ofInt id) := by
    rw [← hparams, lookup?_tail (by decide), lookup?_tail (by decide),
      lookup?_head _ (ofInt_ne_empty id)]
  refine ⟨by rw [match?_default hbuild]; rfl, readSubmissionId_default hid hbuild, ?_⟩
  intro hproject hbatch hascii
  have hprojectValue : lookup? params projectId.toList = some project := by
    rw [← hparams, lookup?_head _ hproject]
  have hbatchValue : lookup? params batchId.toList = some batch := by
    rw [← hparams, lookup?_tail (by decide), lookup?_head _ hbatch]
  rw [match?_default hbuild, List.map_cons, List.map_cons, List.map_cons,
    unescape_spelled hprojectValue fun c hc => hascii c (List.mem_append_left _ hc),
    unescape_spelled hbatchValue fun c hc => hascii c (List.mem_append_right _ hc),
    unescape_spelled hid isAscii_of_mem_ofInt, ← hparams]
  rfl

/-- A project with a blank and a slash in its name. -/
theorem spaced_path_read_back :
    build defaultTemplate [(projectId, "a b/c"), (batchId, "1"), (submissionId, Text.ofInt 42)] =
        .ok "/projects/a%20b%2Fc/batches/1/submissions/42" ∧
      match? defaultTemplate "/projects/a%20b%2Fc/batches/1/submissions/42" =
        some [(projectId, Text.toBytes "a b/c".toList), (batchId, Text.toBytes "1".toList),
          (submissionId, Text.toBytes "42".toList)] := by
  have hid : Text.ofInt 42 = "42" := by
    simp [Text.ofInt, Text.numeral, Text.decimal, Text.digitChar]
  have hbuild : build defaultTemplate
      [(projectId, "a b/c"), (batchId, "1"), (submissionId, Text.ofInt 42)] =
        .ok "/projects/a%20b%2Fc/batches/1/submissions/42" := by
    rw [hid]
    rfl
  refine ⟨hbuild, ?_⟩
  have hread := (default_path_read_back hbuild).2.2 (by decide) (by decide) (by simp [IsAscii])
  rw [hid] at hread
  exact hread

end ReviewQueue.Route
