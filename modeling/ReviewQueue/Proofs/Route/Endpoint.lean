import ReviewQueue.Proofs.Http.Target
import ReviewQueue.Proofs.Server.Answer

/-!
# The paths of the service

With names for values, the paths of the service are paths of names, and each is read as the resource
that it stands for.

* `Endpoint.detail_of_name`, `Endpoint.list_of_names` — the paths of a submission and of a batch;
* `Endpoint.list_ne_of_prefix` — a batch and a submission have different paths, for any names;
* `Server.resource?_detail`, `Server.resource?_list` — the resources.
-/

namespace ReviewQueue

open PathTemplate Http

namespace Route

/-- A name is spelled as it is. -/
theorem spelled_name {params : Params} {name : List Char} {value : String}
    (hvalue : lookup? params name = some value) (h : IsName value) :
    spelled params name = value.toList := by
  rw [spelled, hvalue]
  have hplain : ∀ c ∈ value.toList, escapeChar .simple c = [c] := by
    intro c hc
    have hc := isUnreserved_of_isNameChar (h.2 c hc)
    simp [escapeChar, Operator.allows, hc]
  show value.toList.flatMap (escapeChar .simple) = value.toList
  rw [List.flatMap_congr hplain, List.flatMap_singleton']

theorem isClean_name {params : Params} {name : List Char} {value : String}
    (hvalue : lookup? params name = some value) (h : IsName value) : IsClean params name := by
  intro other hother
  obtain rfl := Option.some.inj (hvalue.symm.trans hother)
  intro hmem
  exact ne_of_isNameChar (by decide) (h.2 _ hmem) rfl

end Route

namespace Endpoint

/-- The names in the path of a submission. -/
def detailNames (id : String) : List String := ["api", "v1", "submissions", id]

/-- The names in the path of a batch. -/
def listNames (project batch : String) : List String :=
  ["api", "v1", "projects", project, "batches", batch, "submissions"]

/-- The path of a submission. -/
def detailPath (id : String) : String := .ofList (Target.ofNames (detailNames id))

/-- The path of a batch. -/
def listPath (project batch : String) : String := .ofList (Target.ofNames (listNames project batch))

/-- The path of the attachments of a submission. -/
def attachmentsPath (id : String) : String :=
  .ofList (Target.ofNames (detailNames id ++ ["attachments"]))

theorem isName_detail {id : String} (h : IsName id) : ∀ n ∈ detailNames id, IsName n := by
  simp only [detailNames, List.forall_mem_cons, List.not_mem_nil, false_implies, implies_true,
    and_true]
  exact ⟨by decide, by decide, by decide, h⟩

theorem isName_attachments {id : String} (h : IsName id) :
    ∀ n ∈ detailNames id ++ ["attachments"], IsName n :=
  List.forall_mem_append.mpr ⟨isName_detail h, List.forall_mem_singleton.mpr (by decide)⟩

theorem isName_list {project batch : String} (hproject : IsName project) (hbatch : IsName batch) :
    ∀ n ∈ listNames project batch, IsName n := by
  simp only [listNames, List.forall_mem_cons, List.not_mem_nil, false_implies, implies_true,
    and_true]
  exact ⟨by decide, by decide, by decide, hproject, by decide, hbatch, by decide⟩

/-! ## The paths -/

set_option maxRecDepth 4000 in
theorem ofText_detail :
    PathTemplate.ofText detailTemplate =
      .ok ⟨[.literal "/api/v1/submissions/".toList,
        .expression .simple [{ name := Route.submissionId.toList }]]⟩ := rfl

set_option maxRecDepth 4000 in
theorem ofText_list :
    PathTemplate.ofText listTemplate =
      .ok ⟨[.literal "/api/v1/projects/".toList,
        .expression .simple [{ name := Route.projectId.toList }], .literal "/batches/".toList,
        .expression .simple [{ name := Route.batchId.toList }],
        .literal "/submissions".toList]⟩ := rfl

set_option maxRecDepth 4000 in
theorem ofText_attachments :
    PathTemplate.ofText attachmentsTemplate =
      .ok ⟨[.literal "/api/v1/submissions/".toList,
        .expression .simple [{ name := Route.submissionId.toList }],
        .literal "/attachments".toList]⟩ := rfl

theorem detail_of_name {id : String} (h : IsName id) :
    detail id = .ok (detailPath id) := by
  have hvalue := Route.lookup?_head Route.submissionId h.1 []
  refine (Route.build_of_delimited ofText_detail (.literal .last)).mpr ⟨?_, ?_⟩
  · exact List.forall_mem_singleton.mpr (Route.isClean_name hvalue h)
  · simp only [spelling, List.flatMap_cons, List.flatMap_nil, Route.spelled_name hvalue h]
    simp [detailPath, Target.ofNames, detailNames]

theorem attachments_of_name {id : String} (h : IsName id) :
    attachments id = .ok (attachmentsPath id) := by
  have hvalue := Route.lookup?_head Route.submissionId h.1 []
  refine (Route.build_of_delimited ofText_attachments (.literal (.inner (.literal .nil)))).mpr
    ⟨?_, ?_⟩
  · exact List.forall_mem_singleton.mpr (Route.isClean_name hvalue h)
  · simp only [spelling, List.flatMap_cons, List.flatMap_nil, Route.spelled_name hvalue h]
    simp [attachmentsPath, Target.ofNames, detailNames]

theorem list_of_names {project batch : String} (hproject : IsName project)
    (hbatch : IsName batch) :
    list project batch = .ok (listPath project batch) := by
  have hfirst := Route.lookup?_head Route.projectId hproject.1 [(Route.batchId, batch)]
  have hsecond : lookup? [(Route.projectId, project), (Route.batchId, batch)]
      Route.batchId.toList = some batch := by
    rw [Route.lookup?_tail (by decide), Route.lookup?_head _ hbatch.1]
  refine (Route.build_of_delimited ofText_list
    (.literal (.inner (.literal (.inner (.literal .nil)))))).mpr ⟨?_, ?_⟩
  · exact List.forall_mem_cons.mpr ⟨Route.isClean_name hfirst hproject,
      List.forall_mem_singleton.mpr (Route.isClean_name hsecond hbatch)⟩
  · simp only [spelling, List.flatMap_cons, List.flatMap_nil, Route.spelled_name hfirst hproject,
      Route.spelled_name hsecond hbatch]
    simp [listPath, Target.ofNames, listNames]

/-! ## Paths of different kinds -/

variable {id project batch path : String}

theorem prefix_of_list (h : list project batch = .ok path) :
    "/api/v1/projects/".toList <+: path.toList := by
  have hpath := ((Route.build_of_delimited ofText_list
    (.literal (.inner (.literal (.inner (.literal .nil)))))).mp h).2
  rw [(congrArg String.toList hpath).trans String.toList_ofList, spelling]
  exact List.prefix_append _ _

theorem prefix_of_detail (h : detail id = .ok path) :
    "/api/v1/submissions/".toList <+: path.toList := by
  have hpath := ((Route.build_of_delimited ofText_detail (.literal .last)).mp h).2
  rw [(congrArg String.toList hpath).trans String.toList_ofList, spelling]
  exact List.prefix_append _ _

theorem prefix_of_attachments (h : attachments id = .ok path) :
    "/api/v1/submissions/".toList <+: path.toList := by
  have hpath := ((Route.build_of_delimited ofText_attachments
    (.literal (.inner (.literal .nil)))).mp h).2
  rw [(congrArg String.toList hpath).trans String.toList_ofList, spelling]
  exact List.prefix_append _ _

/-- The path of a batch is no path that starts like that of a submission. -/
theorem list_ne_of_prefix {other : String} (h : list project batch = .ok path)
    (hother : "/api/v1/submissions/".toList <+: other.toList) : other ≠ path := by
  rintro rfl
  -- the shorter of the two beginnings would have to be a beginning of the longer one
  have hprefix := List.prefix_of_prefix_length_le (prefix_of_list h) hother (by decide)
  exact absurd hprefix (by decide)

theorem list_ne_statuses (h : list project batch = .ok path) : statuses ≠ path := by
  rintro rfl
  exact absurd (prefix_of_list h) (by decide)

theorem list_ne_empty (h : list project batch = .ok path) : path ≠ "" := by
  rintro rfl
  exact absurd (prefix_of_list h) (by decide)

/-- The path of the verdicts to choose from does not start like that of a submission. -/
theorem statuses_ne_of_prefix (h : "/api/v1/submissions/".toList <+: path.toList) :
    statuses ≠ path := by
  rintro rfl
  exact absurd h (by decide)

/-- The path of the attachments is longer than that of their submission. -/
theorem detail_ne_attachments {other : String} (hdetail : detail id = .ok path)
    (hattachments : attachments id = .ok other) : path ≠ other := by
  have hshort := ((Route.build_of_delimited ofText_detail (.literal .last)).mp hdetail).2
  have hlong := ((Route.build_of_delimited ofText_attachments
    (.literal (.inner (.literal .nil)))).mp hattachments).2
  intro heq
  have hlength := congrArg String.length (hshort.symm.trans (heq.trans hlong))
  simp [spelling] at hlength

end Endpoint

namespace Server

open Endpoint

theorem toBytes_ne_nil {s : String} (h : IsName s) : Text.toBytes s.toList ≠ [] := by
  rw [Route.toBytes_of_isAscii h.isAscii]
  simpa using h.toList_ne_nil

theorem resource?_detail {id : String} (h : IsName id) :
    resource? (detailPath id) = some (.submission (Text.toBytes id.toList)) := by
  rw [detailPath, resource?, Target.path_ofNames (isName_detail h),
    Target.segments_ofNames (isName_detail h)]
  exact if_pos ⟨rfl, rfl, rfl, toBytes_ne_nil h⟩

theorem resource?_attachments {id : String} (h : IsName id) :
    resource? (attachmentsPath id) = some (.attachments (Text.toBytes id.toList)) := by
  have hnames := isName_attachments h
  rw [attachmentsPath, resource?, Target.path_ofNames hnames, Target.segments_ofNames hnames]
  rfl

theorem resource?_list {project batch : String} (hproject : IsName project)
    (hbatch : IsName batch) :
    resource? (listPath project batch) =
      some (.batch (Text.toBytes project.toList) (Text.toBytes batch.toList)) := by
  have hnames := isName_list hproject hbatch
  rw [listPath, resource?, Target.path_ofNames hnames, Target.segments_ofNames hnames]
  rfl

/-- A number that can be stored is named by its text. -/
theorem names_ofInt {id : Int} (hpos : 0 < id) (hfits : fitsWord id = true) :
    Names (Text.toBytes (Text.ofInt id).toList) id := by
  refine ⟨Text.ofInt id, ?_, (Text.toInt?_pos_iff _ id).mp ⟨Text.toInt?_ofInt hfits, hpos⟩⟩
  rw [Route.ofBytes?_toBytes (isName_ofInt id).isAscii, String.ofList_toList]

end Server
end ReviewQueue
