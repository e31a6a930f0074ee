import ReviewQueue.Proofs.Route.Endpoint

/-!
# Which batch a path names

The path of a batch spells the names of its project and of the batch with escapes for the bytes of
code points, and the service reads escapes as bytes of UTF-8. Any pair of names has a path, which
names some batch; it is the batch that the path was built for when both names are ASCII, and only
then. Outside of ASCII two batches may share a path.

* `unescape_spelled_text` — what an escaped text is read as: the bytes of its code points;
* `codeText_eq_toBytes_iff` — which is the text itself when it is ASCII, and only then;
* `Endpoint.list_of_segmentTexts`, `Server.resource?_listSegments` — the path of a batch, and the
  batch that it names;
* `batch_path_read_back_iff` — when the two are the same.
-/

namespace ReviewQueue

open PathTemplate Http

namespace PathTemplate

/-! ## Escapes and UTF-8 -/

/-- A text as its escapes spell it: the bytes of its code points, one after the other. -/
def codeText (s : List Char) : List UInt8 := s.flatMap fun c => (codeBytes c).map UInt8.ofNat

theorem length_codeBytes (c : Char) :
    (codeBytes c).length ≤ if c.toNat ≤ 0xFF then 1 else if c.toNat ≤ 0xFFFF then 2 else 3 := by
  split
  · have hhigh : c.toNat / 65536 = 0 := by omega
    have hmid : c.toNat / 256 % 256 = 0 := by omega
    have hfilter := List.length_filter_le (· != 0) [c.toNat % 256]
    simpa [codeBytes, hhigh, hmid] using hfilter
  · split
    · have hhigh : c.toNat / 65536 = 0 := by omega
      have hfilter := List.length_filter_le (· != 0) [c.toNat / 256 % 256, c.toNat % 256]
      simpa [codeBytes, hhigh] using hfilter
    · exact List.length_filter_le _ _

theorem length_utf8EncodeChar (c : Char) :
    (String.utf8EncodeChar c).length =
      if c.toNat ≤ 0x7F then 1 else if c.toNat ≤ 0x7FF then 2 else if c.toNat ≤ 0xFFFF then 3
      else 4 := by
  have hval : c.val.toNat = c.toNat := rfl
  simp only [String.utf8EncodeChar, hval]
  split_ifs <;> rfl

/-- A code point takes at most as many bytes as its UTF-8 form. -/
theorem length_codeBytes_le (c : Char) :
    (codeBytes c).length ≤ (String.utf8EncodeChar c).length := by
  have hcode := length_codeBytes c
  rw [length_utf8EncodeChar]
  split_ifs at hcode ⊢ <;> omega

/-- Only an ASCII character is its own code point's bytes. -/
theorem isAscii_of_codeBytes_eq {c : Char}
    (h : (codeBytes c).map UInt8.ofNat = String.utf8EncodeChar c) : Route.IsAscii c := by
  have hlength := congrArg List.length h
  have hcode := length_codeBytes c
  rw [List.length_map, length_utf8EncodeChar] at hlength
  have hval : c.val.toNat = c.toNat := rfl
  by_cases hzero : c.toNat = 0
  · rw [codeBytes] at hlength
    simp [hzero] at hlength
  by_cases hascii : c.toNat ≤ 0x7F
  · exact ⟨by omega, hascii⟩
  exfalso
  -- only from U+0100 to U+07FF are there as many bytes, and there the first one differs
  have hrange : 0x100 ≤ c.toNat ∧ c.toNat ≤ 0x7FF := by
    split_ifs at hlength hcode <;> omega
  have hhigh : c.toNat / 65536 = 0 := by omega
  have hmid : c.toNat / 256 % 256 = c.toNat / 256 := by omega
  have hne : c.toNat / 256 ≠ 0 := by omega
  have hutf : String.utf8EncodeChar c =
      [UInt8.ofNat (c.toNat / 64 % 32 + 192), UInt8.ofNat (c.toNat % 64 + 128)] := by
    simp only [String.utf8EncodeChar, hval]
    rw [if_neg hascii, if_pos hrange.2]
  rw [hutf, codeBytes] at h
  simp only [hhigh, hmid, List.filter_cons, bne_self_eq_false, Bool.false_eq_true, if_false,
    bne_iff_ne, ne_eq, hne, not_false_eq_true, if_true, List.map_cons, List.cons.injEq] at h
  have hfirst := congrArg UInt8.toNat h.1
  rw [UInt8.toNat_ofNat', UInt8.toNat_ofNat'] at hfirst
  have hlow : c.toNat / 256 % 2 ^ 8 ≤ 7 := by
    clear hfirst
    omega
  have hmark : 192 ≤ (c.toNat / 64 % 32 + 192) % 2 ^ 8 := by
    clear hfirst
    omega
  rw [← hfirst] at hmark
  exact absurd (hmark.trans hlow) (by decide)

theorem codeBytes_eq_iff {c : Char} :
    (codeBytes c).map UInt8.ofNat = String.utf8EncodeChar c ↔ Route.IsAscii c := by
  refine ⟨isAscii_of_codeBytes_eq, fun h => ?_⟩
  rw [Route.codeBytes_of_isAscii h, Route.utf8EncodeChar_of_isAscii h]
  rfl

theorem length_codeText_le (s : List Char) : (codeText s).length ≤ (Text.toBytes s).length := by
  induction s with
  | nil => exact Nat.le_refl _
  | cons c s ih =>
      have hc := length_codeBytes_le c
      rw [codeText, Text.toBytes, List.flatMap_cons, List.flatMap_cons, List.length_append,
        List.length_append, List.length_map]
      exact Nat.add_le_add hc ih

/-- The bytes of its code points are the text itself when it is ASCII, and only then. -/
theorem codeText_eq_toBytes_iff (s : List Char) :
    codeText s = Text.toBytes s ↔ ∀ c ∈ s, Route.IsAscii c := by
  induction s with
  | nil => simp [codeText, Text.toBytes]
  | cons c s ih =>
      rw [List.forall_mem_cons, ← ih, ← codeBytes_eq_iff]
      show (codeBytes c).map UInt8.ofNat ++ codeText s =
        String.utf8EncodeChar c ++ Text.toBytes s ↔ _
      refine ⟨fun h => ?_, fun h => by rw [h.1, h.2]⟩
      -- no side is longer than the other in front or behind, so they are cut at one place
      have hlength := congrArg List.length h
      have hfirst := length_codeBytes_le c
      have hrest := length_codeText_le s
      simp only [List.length_append, List.length_map] at hlength
      exact List.append_inj h (by rw [List.length_map]; omega)

/-! ## Escapes in a segment -/

theorem isAscii_of_isUnreserved {c : Char} (h : isUnreserved c = true) : Route.IsAscii c := by
  simp only [isUnreserved, Bool.or_eq_true, Bool.and_eq_true, decide_eq_true_eq, beq_iff_eq,
    Char.le_def, UInt32.le_iff_toNat_le] at h
  have hval : c.val.toNat = c.toNat := rfl
  simp only [hval] at h
  rcases h with (((((hrange | hrange) | hrange) | rfl) | rfl) | rfl) | rfl
  · exact ⟨Nat.le_trans (by decide) hrange.1, Nat.le_trans hrange.2 (by decide)⟩
  · exact ⟨Nat.le_trans (by decide) hrange.1, Nat.le_trans hrange.2 (by decide)⟩
  · exact ⟨Nat.le_trans (by decide) hrange.1, Nat.le_trans hrange.2 (by decide)⟩
  all_goals decide

theorem unescape_escapeBytes {bytes : List Nat} (h : ∀ b ∈ bytes, b < 256) (rest : List Char) :
    Route.unescape (bytes.flatMap escapeByte ++ rest) =
      bytes.map UInt8.ofNat ++ Route.unescape rest := by
  induction bytes with
  | nil => rfl
  | cons b bytes ih =>
      obtain ⟨hb, hrest⟩ := List.forall_mem_cons.mp h
      rw [List.flatMap_cons, List.append_assoc, Route.unescape_escapeByte hb, ih hrest]
      rfl

/-- What an escaped text is read as. -/
theorem unescape_spelled_text (s : List Char) :
    Route.unescape (s.flatMap (escapeChar .simple)) = codeText s := by
  induction s with
  | nil => rfl
  | cons c s ih =>
      rw [List.flatMap_cons, codeText, List.flatMap_cons, ← codeText, ← ih]
      unfold escapeChar
      split
      · rename_i hc
        have hname : isUnreserved c = true := by
          simpa [Operator.allows, Operator.keepsReserved] using hc
        rw [codeBytes_eq_iff.mpr (isAscii_of_isUnreserved hname)]
        exact Route.unescape_cons (not_mark_of_isUnreserved hname).1 _
      · exact unescape_escapeBytes (fun b hb => lt_of_mem_codeBytes hb) _

theorem IsValue.not_mem {mark : Char} (hplain : isUnreserved mark = false)
    (hhex : isHex mark = false) (hpercent : mark ≠ '%') {s : List Char} (h : IsValue s) :
    mark ∉ s := by
  induction h with
  | nil => exact List.not_mem_nil
  | plain hc _ ih =>
      rw [List.mem_cons, not_or]
      refine ⟨?_, ih⟩
      rintro rfl
      rw [hplain] at hc
      cases hc
  | escape ha hb _ ih =>
      rw [List.mem_cons, List.mem_cons, List.mem_cons, not_or, not_or, not_or]
      refine ⟨hpercent, ?_, ?_, ih⟩ <;> rintro rfl
      · rw [hhex] at ha
        cases ha
      · rw [hhex] at hb
        cases hb

theorem codeBytes_ne_nil {c : Char} (h : c ≠ Char.ofNat 0) : codeBytes c ≠ [] := by
  intro hnil
  have hnone : ∀ b ∈ [c.toNat / 65536, c.toNat / 256 % 256, c.toNat % 256], b = 0 := by
    simpa [codeBytes, List.filter_eq_nil_iff] using hnil
  simp only [List.forall_mem_cons, List.not_mem_nil, false_implies, implies_true,
    and_true] at hnone
  have hzero : c.toNat = 0 := by omega
  exact h (by rw [← Char.ofNat_toNat (c := c), hzero])

/-- A text that is spelled without an escape is the text it is spelled as. -/
theorem eq_of_spelled_plain {s text : List Char} (hzero : Char.ofNat 0 ∉ s) (hplain : '%' ∉ text)
    (h : s.flatMap (escapeChar .simple) = text) : s = text := by
  induction s generalizing text with
  | nil => exact h
  | cons c s ih =>
      obtain ⟨hc, hs⟩ : c ≠ Char.ofNat 0 ∧ Char.ofNat 0 ∉ s := by
        simpa [eq_comm] using hzero
      rw [List.flatMap_cons, escapeChar] at h
      split at h
      · subst h
        exact congrArg (c :: ·) (ih hs (fun hmem => hplain (List.mem_cons_of_mem _ hmem)) rfl)
      · obtain ⟨b, bytes, hbytes⟩ := List.exists_cons_of_ne_nil (codeBytes_ne_nil hc)
        refine absurd ?_ hplain
        rw [← h, hbytes]
        exact List.mem_cons_self

end PathTemplate

/-! ## Paths of batches -/

/-- A text that can name a project or a batch in a path: one that can be escaped, and that the
service does not take for an empty segment or a step in the hierarchy. -/
structure IsSegmentText (s : String) : Prop where
  ne_empty : s ≠ ""
  ne_dot : s ≠ "."
  ne_dots : s ≠ ".."
  no_replacement : Text.replacement ∉ s.toList
  no_zero : Char.ofNat 0 ∉ s.toList

namespace IsSegmentText

variable {s : String}

theorem isSegment (h : IsSegmentText s) :
    Target.IsSegment (s.toList.flatMap (escapeChar .simple)) := by
  have hvalue : IsValue (s.toList.flatMap (escapeChar .simple)) :=
    .flatMap fun c _ => isValue_escapeChar c
  have hplain {text : String} (hne : s ≠ text) (hpercent : '%' ∉ text.toList) :
      s.toList.flatMap (escapeChar .simple) ≠ text.toList := by
    intro heq
    exact hne (String.toList_inj.mp (eq_of_spelled_plain h.no_zero hpercent heq))
  exact ⟨hplain h.ne_empty (by decide), hplain h.ne_dot (by decide), hplain h.ne_dots (by decide),
    hvalue.not_mem (by decide) (by decide) (by decide),
    hvalue.not_mem (by decide) (by decide) (by decide)⟩

end IsSegmentText

namespace Endpoint

variable {project batch : String}

/-- The segments in the path of a batch. -/
def listSegments (project batch : String) : List (List Char) :=
  ["api".toList, "v1".toList, "projects".toList, project.toList.flatMap (escapeChar .simple),
    "batches".toList, batch.toList.flatMap (escapeChar .simple), "submissions".toList]

theorem isSegment_list (hproject : IsSegmentText project) (hbatch : IsSegmentText batch) :
    ∀ s ∈ listSegments project batch, Target.IsSegment s := by
  have hname {s : String} (h : IsName s) := Target.isSegment_of_isName h
  simp only [listSegments, List.forall_mem_cons, List.not_mem_nil, false_implies, implies_true,
    and_true]
  exact ⟨hname (by decide), hname (by decide), hname (by decide), hproject.isSegment,
    hname (by decide), hbatch.isSegment, hname (by decide)⟩

/-- The path of a batch. -/
theorem list_of_segmentTexts (hproject : IsSegmentText project) (hbatch : IsSegmentText batch) :
    list project batch = .ok (.ofList (Target.ofSegments (listSegments project batch))) := by
  have hfirst := Route.lookup?_head Route.projectId hproject.ne_empty [(Route.batchId, batch)]
  have hsecond : lookup? [(Route.projectId, project), (Route.batchId, batch)]
      Route.batchId.toList = some batch := by
    rw [Route.lookup?_tail (by decide), Route.lookup?_head _ hbatch.ne_empty]
  have hclean {name : List Char} {value : String} (hvalue : lookup?
        [(Route.projectId, project), (Route.batchId, batch)] name = some value)
      (h : IsSegmentText value) :
      PathTemplate.IsClean [(Route.projectId, project), (Route.batchId, batch)] name := by
    intro other hother
    obtain rfl := Option.some.inj (hvalue.symm.trans hother)
    exact h.no_replacement
  refine (Route.build_of_delimited ofText_list
    (.literal (.inner (.literal (.inner (.literal .nil)))))).mpr ⟨?_, ?_⟩
  · exact List.forall_mem_cons.mpr ⟨hclean hfirst hproject,
      List.forall_mem_singleton.mpr (hclean hsecond hbatch)⟩
  · simp only [spelling, List.flatMap_cons, List.flatMap_nil, spelled, hfirst, hsecond]
    simp [Target.ofSegments, listSegments]

end Endpoint

namespace Server

open Endpoint

variable {project batch : String}

/-- The batch that a path names: the bytes of the code points of both names. -/
theorem resource?_listSegments (hproject : IsSegmentText project) (hbatch : IsSegmentText batch) :
    resource? (.ofList (Target.ofSegments (listSegments project batch))) =
      some (.batch (codeText project.toList) (codeText batch.toList)) := by
  have hsegments := isSegment_list hproject hbatch
  rw [resource?, Target.path_ofSegments hsegments, Target.segments_ofSegments hsegments]
  simp only [listSegments, List.map_cons, List.map_nil, unescape_spelled_text]
  rfl

end Server

namespace Endpoint

open Server (resource?)

variable {project batch : String}

theorem isClean_list (hproject : IsSegmentText project) (hbatch : IsSegmentText batch) :
    Target.IsClean (.ofList (Target.ofSegments (listSegments project batch))) := by
  have hsegments := isSegment_list hproject hbatch
  rw [Target.IsClean, Target.path_ofSegments hsegments]
  exact Target.clean_ofSegments (List.cons_ne_nil _ _) hsegments

theorem eq_of_codeText_eq {s t : String} (hs : ∀ c ∈ s.toList, Route.IsAscii c)
    (ht : ∀ c ∈ t.toList, Route.IsAscii c) (h : codeText s.toList = codeText t.toList) : s = t := by
  rw [(codeText_eq_toBytes_iff _).mpr hs, (codeText_eq_toBytes_iff _).mpr ht] at h
  have htext := congrArg Text.ofBytes? h
  rw [Route.ofBytes?_toBytes hs, Route.ofBytes?_toBytes ht] at htext
  simpa using htext

/-- Batches with ASCII names do not share a path. -/
theorem list_injective {project' batch' path : String} (hproject : IsSegmentText project)
    (hbatch : IsSegmentText batch) (hproject' : IsSegmentText project')
    (hbatch' : IsSegmentText batch')
    (hascii : ∀ c ∈ project.toList ++ batch.toList, Route.IsAscii c)
    (hascii' : ∀ c ∈ project'.toList ++ batch'.toList, Route.IsAscii c)
    (hpath : list project batch = .ok path) (hpath' : list project' batch' = .ok path) :
    project' = project ∧ batch' = batch := by
  rw [list_of_segmentTexts hproject hbatch] at hpath
  rw [list_of_segmentTexts hproject' hbatch', ← hpath] at hpath'
  have hresource := congrArg resource? (Except.ok.inj hpath')
  rw [Server.resource?_listSegments hproject' hbatch',
    Server.resource?_listSegments hproject hbatch] at hresource
  simp only [Option.some.injEq, Server.Resource.batch.injEq] at hresource
  rw [List.forall_mem_append] at hascii hascii'
  exact ⟨eq_of_codeText_eq hascii'.1 hascii.1 hresource.1,
    eq_of_codeText_eq hascii'.2 hascii.2 hresource.2⟩

/-- **A path names the batch it was built for when both names are ASCII, and only then.** Any two
names have a path, which is not redirected and names a batch by the bytes of their code points.
Batches with ASCII names do not share a path. -/
theorem batch_path_read_back_iff (hproject : IsSegmentText project)
    (hbatch : IsSegmentText batch) :
    ∃ path, list project batch = .ok path ∧ Target.IsClean path ∧
      resource? path = some (.batch (codeText project.toList) (codeText batch.toList)) ∧
      (resource? path = some (.batch (Text.toBytes project.toList) (Text.toBytes batch.toList)) ↔
        ∀ c ∈ project.toList ++ batch.toList, Route.IsAscii c) ∧
      ∀ project' batch', IsSegmentText project' → IsSegmentText batch' →
        (∀ c ∈ project.toList ++ batch.toList ++ (project'.toList ++ batch'.toList),
          Route.IsAscii c) →
        list project' batch' = .ok path → project' = project ∧ batch' = batch := by
  have hlist := list_of_segmentTexts hproject hbatch
  have hresource := Server.resource?_listSegments hproject hbatch
  refine ⟨_, hlist, isClean_list hproject hbatch, hresource, ?_, ?_⟩
  · rw [hresource, Option.some.injEq, Server.Resource.batch.injEq, codeText_eq_toBytes_iff,
      codeText_eq_toBytes_iff, List.forall_mem_append]
  · intro project' batch' hproject' hbatch' hascii hpath'
    obtain ⟨hfirst, hsecond⟩ := List.forall_mem_append.mp hascii
    exact list_injective hproject hbatch hproject' hbatch' hfirst hsecond hlist hpath'

/-- A project with a blank and a slash in its name. -/
theorem spaced_batch_read_back :
    ∃ path, list "a b/c" "1" = .ok path ∧
      resource? path = some (.batch (Text.toBytes "a b/c".toList) (Text.toBytes "1".toList)) := by
  have hproject : IsSegmentText "a b/c" := by constructor <;> decide
  have hbatch : IsSegmentText "1" := by constructor <;> decide
  obtain ⟨path, hlist, -, -, hread, -⟩ := batch_path_read_back_iff hproject hbatch
  exact ⟨path, hlist, hread.mpr (by simp [Route.IsAscii])⟩

set_option maxRecDepth 4000 in
/-- A letter with an accent is escaped as one byte, which is read as no text at all, and the radical
`⼀` is escaped as a slash is. -/
theorem accented_batch_misread :
    IsSegmentText "é" ∧ IsSegmentText "b" ∧
      list "é" "b" = .ok "/api/v1/projects/%E9/batches/b/submissions" ∧
      resource? "/api/v1/projects/%E9/batches/b/submissions" ≠
        some (.batch (Text.toBytes "é".toList) (Text.toBytes "b".toList)) ∧
      list "a⼀b" "b" = list "a/b" "b" := by
  refine ⟨by constructor <;> decide, by constructor <;> decide, rfl, ?_, rfl⟩
  decide

end Endpoint
end ReviewQueue
