import ReviewQueue.Proofs.Remote.Origin
import ReviewQueue.Proofs.Remote.Update
import ReviewQueue.Proofs.Route.Endpoint
import ReviewQueue.Proofs.Store.Batch

/-!
# What a client reads at the paths of a service

A client at the origin of a service that asks for a batch gets its list, and one that asks for a
submission gets it, provided that the store is open and the times can be read and written.

* `Client.AtOrigin.send_list` — what comes of a request for a batch;
* `Store.Sound.decode_listing` — the list is read as it was written;
* `Client.AtOrigin.send_detail`, `Client.AtOrigin.get_of_send_detail` — what comes of a request for
  a submission, and when one succeeds;
* `Client.AtOrigin.send_attachments_of_none` — and of one for its attachments, when it has none.
-/

namespace ReviewQueue

open Http Server

namespace Store

/-- The list of a batch, as it is answered. -/
def listing (store : Store) (project batch : String) : SummaryList :=
  ⟨(store.batch project batch).length,
    some ((store.batch project batch).map fun r => some r.summary)⟩

/-- The body of an answer that shows a batch. -/
def listBody (store : Store) (project batch : String) : String :=
  (jsonResponse 200 (store.listing project batch).json?).body

/-- A batch whose times of creation can be read, and written in an answer. -/
def BatchNear (store : Store) (project batch : String) : Prop :=
  ∀ r ∈ store.batch project batch, ∃ t, Timestamp.ofColumn? r.createdAt = some t ∧ t.IsNear

variable {store : Store} {project batch : String}

theorem BatchNear.canList (h : store.BatchNear project batch) :
    CanList (store.batch project batch) := by
  intro r hr
  obtain ⟨t, ht, -⟩ := h r hr
  rw [ht]
  rfl

theorem BatchNear.isNear (h : store.BatchNear project batch) {r : SubmissionRow}
    (hr : r ∈ store.batch project batch) : (Timestamp.ofColumn r.createdAt).IsNear := by
  obtain ⟨t, ht, hnear⟩ := h r hr
  rw [Timestamp.ofColumn, ht]
  exact hnear

theorem Sound.listing_portable (h : store.Sound) (hlist : CanList (store.batch project batch)) :
    (store.listing project batch).Portable := by
  refine ⟨h.fitsWord_length project batch, ?_⟩
  intro o ho s hs
  obtain ⟨r, hr, rfl⟩ := List.mem_map.mp ho
  obtain rfl := Option.some.inj hs
  have hrow := h.rows r (mem_batch.mp hr).1
  exact ⟨hrow.id, Column.person_portable, Timestamp.isReal_ofColumn (hlist r hr)⟩

/-- A list is read as it was written. -/
theorem Sound.decode_listing (h : store.Sound) (hnear : store.BatchNear project batch) :
    Json.decode? {} SummaryList.fill (store.listBody project batch).toList =
      some (store.listing project batch) := by
  obtain ⟨t, ht⟩ : ∃ t, (store.listing project batch).json? = some t := by
    refine SummaryList.exists_json fun o ho s hs => ?_
    obtain ⟨r, hr, rfl⟩ := List.mem_map.mp ho
    obtain rfl := Option.some.inj hs
    exact hnear.isNear hr
  have hbody : (store.listBody project batch).toList = t ++ ['\n'] := by
    rw [listBody, ht]
    exact String.toList_ofList
  rw [hbody]
  exact (SummaryList.prints (h.listing_portable hnear.canList) ht).decode_append (by decide)
    Json.blanks_newline

/-- A list that can be read has times that can be written. -/
theorem near_of_decode {l : SummaryList} (hlist : CanList (store.batch project batch))
    (h : Json.decode? {} SummaryList.fill (store.listBody project batch).toList = some l) :
    store.BatchNear project batch := by
  cases hjson : (store.listing project batch).json? with
  | none =>
      -- a list without a JSON form is answered with nothing
      rw [listBody, hjson] at h
      cases h
  | some t =>
      simp only [SummaryList.json?, bind, Option.bind_eq_some_iff, pure] at hjson
      obtain ⟨results, hresults, -⟩ := hjson
      intro r hr
      obtain ⟨u, hu⟩ := exists_of_optionItems hresults r.summary
        (List.mem_map.mpr ⟨r, hr, rfl⟩)
      obtain ⟨created, hcreated⟩ := Option.isSome_iff_exists.mp (hlist r hr)
      have hnear := Summary.isNear_of_json hu
      simp only [SubmissionRow.summary, Timestamp.ofColumn, hcreated, Option.getD_some] at hnear
      exact ⟨created, hcreated, hnear⟩

/-- A review does not take the list away. -/
theorem BatchNear.reviewed (h : store.BatchNear project batch) (now : Timestamp) (id : Int)
    (v : Verdict) : (store.reviewed now id v).BatchNear project batch := by
  intro r hr
  rw [batch_reviewed] at hr
  obtain ⟨old, hold, rfl⟩ := List.mem_map.mp hr
  rw [decided_createdAt]
  exact h old hold

end Store

theorem Server.answerList_of_names (store : Store) {project batch : String}
    (hproject : IsName project) (hbatch : IsName batch) :
    answerList store (Text.toBytes project.toList) (Text.toBytes batch.toList)
        (Endpoint.listPath project batch) =
      match store.list ⟨project, batch, .none⟩ with
      | .error e => storeFailure e
      | .ok items =>
        jsonResponse 200 (SummaryList.json? ⟨items.length, some (items.map some)⟩) := by
  have hstatus :
      Text.upper (Target.queryValue (Endpoint.listPath project batch) "status") = "" := by
    rw [Endpoint.listPath, Target.queryValue_ofNames (Endpoint.isName_list hproject hbatch)]
    rfl
  have hlist : listBatch store (Text.toBytes project.toList) (Text.toBytes batch.toList) ⟨""⟩ =
      store.list ⟨project, batch, .none⟩ := by
    rw [listBatch, Route.ofBytes?_toBytes hproject.isAscii, Route.ofBytes?_toBytes hbatch.isAscii]
    simp only [String.ofList_toList]
    rfl
  have hnone : (!(⟨""⟩ : Status).isNone && !(⟨""⟩ : Status).isKnown) = false := by decide
  cases hlisted : store.list ⟨project, batch, .none⟩ with
  | error e | ok items =>
      simp only [answerList, hstatus, hnone, hlist, hlisted, Bool.false_eq_true, if_false]

namespace Client.AtOrigin

variable {c : Client} (h : c.AtOrigin)

include h

theorem reaches_detail {id : String} (hid : IsName id) :
    c.Reaches (Endpoint.detailPath id) (Endpoint.detailPath id)
      (.submission (Text.toBytes id.toList)) :=
  h.reaches (Endpoint.isName_detail hid) (by simp [Endpoint.detailNames])
    (resource?_detail hid)

theorem reaches_list {project batch : String} (hproject : IsName project)
    (hbatch : IsName batch) :
    c.Reaches (Endpoint.listPath project batch) (Endpoint.listPath project batch)
      (.batch (Text.toBytes project.toList) (Text.toBytes batch.toList)) :=
  h.reaches (Endpoint.isName_list hproject hbatch) (by simp [Endpoint.listNames])
    (resource?_list hproject hbatch)

theorem reaches_attachments {id : String} (hid : IsName id) :
    c.Reaches (Endpoint.attachmentsPath id) (Endpoint.attachmentsPath id)
      (.attachments (Text.toBytes id.toList)) :=
  h.reaches (Endpoint.isName_attachments hid) (by simp) (resource?_attachments hid)

/-- What comes of a request for a batch. -/
theorem send_list (w : RunningService) {project batch : String} (hproject : IsName project)
    (hbatch : IsName batch) :
    (c.send w "GET" (Endpoint.listPath project batch) none).2.toOption =
      if w.service.store.isOpen ∧ Store.CanList (w.service.store.batch project batch) then
        some (some (w.service.store.listBody project batch))
      else none := by
  obtain ⟨-, -, houtcome⟩ :=
    send_of_reaches (h.reaches_list hproject hbatch) (.inl rfl) List.mem_cons_self w none
  rw [houtcome]
  simp only [answerResource, answerList_of_names w.service.store hproject hbatch]
  cases hlist : w.service.store.list ⟨project, batch, .none⟩ with
  | error e =>
      have hnot : ¬ (w.service.store.isOpen ∧
          Store.CanList (w.service.store.batch project batch)) := by
        rintro ⟨hopen, hcan⟩
        cases hlist.symm.trans (Store.list_batch_eq_ok_iff.mpr ⟨hopen, hcan, rfl⟩)
      rw [if_neg hnot]
      exact if_neg (storeFailure_fails e)
  | ok items =>
      obtain ⟨hopen, hcan, rfl⟩ := Store.list_batch_eq_ok_iff.mp hlist
      simp [Store.listBody, Store.listing, jsonResponse, Function.comp_def, hopen, hcan]

/-- What comes of a request for a submission that is there. -/
theorem send_detail (w : RunningService) {id : Int} {s : Submission}
    (hsound : w.service.store.Sound) (hget : w.service.store.get id = .ok s) :
    (c.send w "GET" (Endpoint.detailPath (Text.ofInt id)) none).2 = .ok (some s.body) := by
  obtain ⟨-, r, hrow, -⟩ := Store.get_eq_ok_iff.mp hget
  obtain ⟨hmem, rfl⟩ := Store.row?_eq_some hrow
  have hr := hsound.rows r hmem
  have hanswer := answerGet_of_names (names_ofInt hr.positive hr.id) hget
  obtain ⟨-, -, houtcome⟩ :=
    send_of_reaches (h.reaches_detail (isName_ofInt r.id)) (.inl rfl) List.mem_cons_self w none
  simp only [answerResource, hanswer] at houtcome
  exact eq_ok_of_toOption houtcome

/-- A request for a submission succeeds only where it can be read. -/
theorem get_of_send_detail (w : RunningService) {id : Int} (hpos : 0 < id)
    (hfits : fitsWord id = true) {data : Option String}
    (hread : (c.send w "GET" (Endpoint.detailPath (Text.ofInt id)) none).2 = .ok data) :
    ∃ s, w.service.store.get id = .ok s := by
  cases hget : w.service.store.get id with
  | ok s => exact ⟨s, rfl⟩
  | error e =>
      have hanswer : answerGet w.service.store (Text.toBytes (Text.ofInt id).toList) =
          storeFailure e := by
        simp only [answerGet, readId_of_names (names_ofInt hpos hfits), hget]
      obtain ⟨-, -, houtcome⟩ :=
        send_of_reaches (h.reaches_detail (isName_ofInt id)) (.inl rfl) List.mem_cons_self w none
      simp only [answerResource, hanswer] at houtcome
      rw [hread] at houtcome
      cases houtcome.trans (if_neg (storeFailure_fails e))

/-- What comes of a request for the attachments of a submission that has none. -/
theorem send_attachments_of_none (w : RunningService) {id : Int} {s : Submission}
    (hsound : w.service.store.Sound) (hget : w.service.store.get id = .ok s)
    (hnone : ∀ a ∈ w.service.store.attachments, a.submissionId ≠ id) :
    (c.send w "GET" (Endpoint.attachmentsPath (Text.ofInt id)) none).2 = .ok (some "[]\n") := by
  obtain ⟨hopen, r, hrow, -⟩ := Store.get_eq_ok_iff.mp hget
  obtain ⟨hmem, rfl⟩ := Store.row?_eq_some hrow
  have hr := hsound.rows r hmem
  have hitems : w.service.store.attachmentsOf r.id = .ok [] := by
    have hfilter : w.service.store.attachments.filter (·.submissionId == r.id) = [] :=
      List.filter_eq_nil_iff.mpr fun a ha => by simpa using hnone a ha
    refine Store.attachmentsOf_eq_ok_iff.mpr ⟨hopen, ?_⟩
    rw [hfilter]
    simp
  have hanswer : answerAttachments w.service.store (Text.toBytes (Text.ofInt r.id).toList) =
      jsonResponse 200 (some ['[', ']']) := by
    rw [answerAttachments, readId_of_names (names_ofInt hr.positive hr.id)]
    simp only [hget, hitems]
    rfl
  obtain ⟨-, -, houtcome⟩ :=
    send_of_reaches (h.reaches_attachments (isName_ofInt r.id)) (.inl rfl) List.mem_cons_self w none
  simp only [answerResource, hanswer] at houtcome
  exact eq_ok_of_toOption houtcome

end Client.AtOrigin
end ReviewQueue
