import ReviewQueue.Proofs.Route.RoundTrip
import ReviewQueue.Review.Navigator
import ReviewQueue.Review.Preferences

/-!
# Templates that pass the check

The settings are checked by one path: a template passes when the submission `1` of the project `p`
and the batch `b` is read back out of its path. For a delimited template that one path tells all.
It passes when the submission is among its variables, and then every path built from it leads to
the submission it was built for. In other templates a value may run into the text behind it, and the
check says nothing about other values.

* `Route.submissionIdBytes_of_delimited` — what is read out of a path of a delimited template;
* `Preferences.templateDefect?_eq_none_iff` — which delimited templates pass;
* `Preferences.pathTo_read_back` — where their paths lead;
* `Preferences.checked_paths_read_back` — the two together, for settings.
-/

namespace ReviewQueue

open PathTemplate

namespace PathTemplate

/-- The value of a variable is one of the given values. -/
theorem mem_of_lookup? {values : Values} {name : List Char} {value : String}
    (h : lookup? values name = some value) : ∃ p ∈ values, p.2 = value := by
  unfold lookup? at h
  cases hfind : values.find? fun p => p.1.toList == name with
  | none => simp [hfind] at h
  | some p =>
      refine ⟨p, List.mem_of_find?_eq_some hfind, ?_⟩
      rw [hfind, Option.map_some] at h
      split at h
      · cases h
      · exact Option.some.inj h

theorem isClean_of_values {values : Values} (h : ∀ p ∈ values, Text.replacement ∉ p.2.toList)
    (name : List Char) : IsClean values name := by
  intro value hvalue
  obtain ⟨p, hp, rfl⟩ := mem_of_lookup? hvalue
  exact h p hp

end PathTemplate

namespace Route

theorem find?_self {items : List (List Char)} (item : List Char) :
    items.find? (· == item) = if item ∈ items then some item else none := by
  split
  · rename_i hitem
    have hsome : (items.find? (· == item)).isSome :=
      List.find?_isSome.mpr ⟨item, hitem, beq_self_eq_true item⟩
    obtain ⟨found, hfound⟩ := Option.isSome_iff_exists.mp hsome
    have hbeq : (found == item) = true := by simpa only using List.find?_some hfound
    rw [hfound, eq_of_beq hbeq]
  · rename_i hitem
    rw [List.find?_eq_none]
    intro other hother
    have hne : other ≠ item := fun heq => hitem (heq ▸ hother)
    simpa using hne

section Delimited

variable {template : String} {first : Char} {text : List Char} {rest : List Segment}
  (htemplate : PathTemplate.ofText template = .ok ⟨.literal (first :: text) :: rest⟩)
  (hdelimited : Delimited rest)

include htemplate hdelimited

/-- A delimited template has a path for any values without the replacement character. -/
theorem exists_path {params : Params} (hclean : ∀ p ∈ params, Text.replacement ∉ p.2.toList) :
    ∃ path, build template params = .ok path :=
  ⟨_, (build_of_delimited htemplate hdelimited.literal).mpr
    ⟨fun name _ => isClean_of_values hclean name, rfl⟩⟩

/-- What is read out of a path of a delimited template: the value that stands there for the
submission, when it is among the variables and has a value. -/
theorem submissionIdBytes_of_delimited {params : Params} {path : String}
    (hbuild : build template params = .ok path) :
    submissionIdBytes template path =
      if submissionId.toList ∈ names ⟨rest⟩ ∧
          unescape (spelled params submissionId.toList) ≠ [] then
        .ok (unescape (spelled params submissionId.toList))
      else .error ⟨path, template⟩ := by
  obtain ⟨-, rfl⟩ := (build_of_delimited htemplate hdelimited.literal).mp hbuild
  have hmatch := match?_of_spelling htemplate hdelimited (isValue_spelled params)
  -- a variable has the name of the submission when its characters are those of that name
  have hself : ((fun p : String × List UInt8 => decide (p.1 = submissionId)) ∘
      fun name => (String.ofList name, unescape (spelled params name))) =
        fun name => name == submissionId.toList := by
    funext name
    rw [Function.comp_apply, beq_eq_decide, decide_eq_decide]
    exact ⟨fun h => by rw [← h, String.toList_ofList], fun h => by rw [h, String.ofList_toList]⟩
  rw [submissionIdBytes, hmatch, Option.bind_some, List.find?_map, hself, find?_self]
  simp only [List.mem_eraseDups]
  by_cases hname : submissionId.toList ∈ names ⟨rest⟩
  · simp only [hname, if_true, Option.map_some, true_and]
    cases unescape (spelled params submissionId.toList) <;> rfl
  · simp only [hname, if_false, Option.map_none, false_and]

/-- When the submission is among the variables, the number of a submission is read out of its
path. -/
theorem readSubmissionId_of_delimited (hname : submissionId.toList ∈ names ⟨rest⟩)
    {params : Params} {path : String} {id : Int}
    (hid : lookup? params submissionId.toList = some (Text.ofInt id))
    (hbuild : build template params = .ok path) :
    readSubmissionId template path = .ok (Text.ofInt id) := by
  have hascii := isAscii_of_mem_ofInt (n := id)
  have hbytes := unescape_spelled hid hascii
  have hne : Text.toBytes (Text.ofInt id).toList ≠ [] := by
    rw [toBytes_of_isAscii hascii, Text.ofInt, String.toList_ofList]
    simpa using Text.numeral_ne_nil id
  rw [readSubmissionId, submissionIdBytes_of_delimited htemplate hdelimited hbuild, hbytes,
    if_pos ⟨hname, hne⟩]
  simp only [Except.map, lossy_toBytes hascii, String.ofList_toList]

end Delimited

end Route

namespace Preferences

variable {c : Preferences} {first : Char} {text : List Char} {rest : List Segment}
  (htemplate : PathTemplate.ofText c.pathTemplate = .ok ⟨.literal (first :: text) :: rest⟩)
  (hdelimited : Delimited rest)

include htemplate hdelimited

/-- A delimited template passes the check when the submission is among its variables. -/
theorem templateDefect?_eq_none_iff :
    templateDefect? c.pathTemplate = none ↔ Route.submissionId.toList ∈ names ⟨rest⟩ := by
  obtain ⟨path, hbuild⟩ : ∃ path, Route.build c.pathTemplate sample = .ok path :=
    Route.exists_path htemplate hdelimited (by decide)
  have hone : Route.unescape (spelled sample Route.submissionId.toList) = [0x31] := by decide
  rw [templateDefect?, hbuild]
  simp only [Route.submissionIdBytes_of_delimited htemplate hdelimited hbuild, hone, ne_eq,
    List.cons_ne_nil, not_false_eq_true, and_true]
  by_cases hname : Route.submissionId.toList ∈ names ⟨rest⟩ <;> simp [hname]

/-- A path that a navigator builds from a template that passes leads to the submission it was built
for. -/
theorem pathTo_read_back (hname : Route.submissionId.toList ∈ names ⟨rest⟩) {n : Navigator}
    (hn : n.template = c.pathTemplate) (hclean : ∀ p ∈ n.params, Text.replacement ∉ p.2.toList)
    (id : Int) :
    ∃ path, n.pathTo (some id) = .ok path ∧
      Route.readSubmissionId c.pathTemplate path = .ok (Text.ofInt id) := by
  have hnumber : Text.replacement ∉ (Text.ofInt id).toList := by
    intro hmem
    exact absurd (Route.isAscii_of_mem_ofInt _ hmem) (by decide)
  obtain ⟨path, hbuild⟩ : ∃ path, Route.build c.pathTemplate
      ((Route.submissionId, Text.ofInt id) :: n.params) = .ok path :=
    Route.exists_path htemplate hdelimited (List.forall_mem_cons.mpr ⟨hnumber, hclean⟩)
  refine ⟨path, ?_, Route.readSubmissionId_of_delimited htemplate hdelimited hname
    (Route.lookup?_head _ (Route.ofInt_ne_empty id) _) hbuild⟩
  rw [Navigator.pathTo, hn, hbuild]

/-- **For delimited templates one path tells all.** A template of literal text and plain variables,
each of which ends at a slash or with the template, passes the check when the submission is among
its variables. With settings in which nothing is wrong, the path to any submission can then be
built, whatever the project and the batch are called, and the number of the submission is read out
of it. -/
theorem checked_paths_read_back :
    (templateDefect? c.pathTemplate = none ↔ Route.submissionId.toList ∈ names ⟨rest⟩) ∧
      (c.defects = [] → ∀ (n : Navigator) (id : Int), n.template = c.pathTemplate →
        (∀ p ∈ n.params, Text.replacement ∉ p.2.toList) →
        ∃ path, n.pathTo (some id) = .ok path ∧
          Route.readSubmissionId c.pathTemplate path = .ok (Text.ofInt id)) := by
  have hcheck := templateDefect?_eq_none_iff htemplate hdelimited
  refine ⟨hcheck, fun hnone n id hn hclean => ?_⟩
  have hdefect : templateDefect? c.pathTemplate = none := by
    simp only [defects, List.append_eq_nil_iff, Option.toList_eq_nil_iff] at hnone
    exact hnone.1.1
  exact pathTo_read_back htemplate hdelimited (hcheck.mp hdefect) hn hclean id

end Preferences

namespace Preferences

/-- Settings with a template and nothing else. -/
def ofTemplate (template : String) : Preferences := ⟨template, [], defaultSuccessMessage, []⟩

/-- A template with the batch twice. -/
def twiceTemplate : String := "/\x7bbatchId\x7d/\x7bbatchId\x7d/q/\x7bsubmissionId\x7d"

set_option maxRecDepth 4000 in
theorem ofText_twice :
    PathTemplate.ofText (ofTemplate twiceTemplate).pathTemplate =
      .ok ⟨[.literal "/".toList, .expression .simple [{ name := Route.batchId.toList }],
        .literal "/".toList, .expression .simple [{ name := Route.batchId.toList }],
        .literal "/q/".toList, .expression .simple [{ name := Route.submissionId.toList }]]⟩ := rfl

theorem twice_checked :
    templateDefect? twiceTemplate = none ∧
      ∃ path, Navigator.pathTo ⟨twiceTemplate, [(Route.batchId, "a-b c")], none, none⟩ (some 12) =
          .ok path ∧
        Route.readSubmissionId twiceTemplate path = .ok (Text.ofInt 12) := by
  have hdelimited : Delimited [.expression .simple [{ name := Route.batchId.toList }],
      .literal "/".toList, .expression .simple [{ name := Route.batchId.toList }],
      .literal "/q/".toList, .expression .simple [{ name := Route.submissionId.toList }]] :=
    .inner (.literal (.inner (.literal .last)))
  obtain ⟨hcheck, hpaths⟩ := checked_paths_read_back ofText_twice hdelimited
  have hnone : templateDefect? twiceTemplate = none := hcheck.mpr (by decide)
  have hdefects : (ofTemplate twiceTemplate).defects = [] := by
    rw [defects, show (ofTemplate twiceTemplate).pathTemplate = twiceTemplate from rfl, hnone]
    rfl
  exact ⟨hnone, hpaths hdefects ⟨twiceTemplate, [(Route.batchId, "a-b c")], none, none⟩ 12 rfl
    (by decide)⟩

/-- A template in which the submission ends at a character that a project may hold. -/
def dashTemplate : String := "/\x7bsubmissionId\x7d-\x7bprojectId\x7d"

/-- It passes the check, and the path to submission 12 of the project `a-b` leads elsewhere. -/
theorem dash_passes_and_misleads :
    (ofTemplate dashTemplate).defects = [] ∧
      Navigator.pathTo ⟨dashTemplate, [(Route.projectId, "a-b"), (Route.batchId, "b")], none, none⟩
        (some 12) = .ok "/12-a-b" ∧
      Route.readSubmissionId dashTemplate "/12-a-b" = .ok "12-a" := by
  refine ⟨?_, ?_, ?_⟩
  · decide +kernel
  · have hid : Text.ofInt 12 = "12" := by
      simp [Text.ofInt, Text.numeral, Text.decimal, Text.digitChar]
    rw [Navigator.pathTo]
    simp only [hid]
    decide +kernel
  · decide +kernel

end Preferences
end ReviewQueue
