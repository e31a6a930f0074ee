import ReviewQueue.Proofs.Grouping
import ReviewQueue.Proofs.Import.Brought

/-!
# What a rehearsal announces

A rehearsal leaves the store as it is and announces, in the order of the file, every record whose
title is not in the batch. It does not remember what it announced: a title that the file repeats is
announced as often as it occurs, while the import creates it once.

* `rehearsal_steps` — a rehearsal record by record;
* `rehearsal_announces` — a rehearsal and the import of the same file, side by side.
-/

namespace ReviewQueue.Import

variable {f : ImportFile} {t : TimedStore}

/-- The records whose titles are not taken. -/
def unseen (taken : List String) (records : List ImportRecord) : List ImportRecord :=
  records.filter (·.title ∉ taken)

/-- The lines in which a rehearsal announces records. -/
def announcements (records : List ImportRecord) : String :=
  String.join (records.map fun r => "⚠ [DRY-RUN] " ++ announcement r ++ "\n")

theorem unseen_cons_of_mem {taken : List String} {r : ImportRecord} {rest : List ImportRecord}
    (h : r.title ∈ taken) : unseen taken (r :: rest) = unseen taken rest :=
  List.filter_cons_of_neg (by simpa using h)

theorem unseen_cons_of_not_mem {taken : List String} {r : ImportRecord}
    {rest : List ImportRecord} (h : r.title ∉ taken) :
    unseen taken (r :: rest) = r :: unseen taken rest :=
  List.filter_cons_of_pos (by simpa using h)

@[simp] theorem detail_err (c : Console) (message : String) :
    (c.detail message).err = c.err := by
  unfold Console.detail
  split <;> rfl

theorem rehearse_eq {c : Console} (hdry : c.dryRun = true) (message : String) :
    c.rehearse message = c.writeError ("⚠ [DRY-RUN] " ++ message ++ "\n") := by
  rw [Console.rehearse, if_pos hdry, Console.warning, ← String.append_assoc]
  rfl

/-- A rehearsal goes over all records, changes nothing and announces those that are not there. -/
theorem rehearsal_steps {i : Import} (records : List ImportRecord)
    (hdry : i.console.dryRun = true) :
    ∃ last, steps f i records = (last, none) ∧ last.stored = i.stored ∧
      last.console.err = i.console.err ++ announcements (unseen i.titles records) := by
  induction records generalizing i with
  | nil => exact ⟨i, rfl, rfl, by simp [unseen, announcements]⟩
  | cons r rest ih =>
      by_cases htaken : r.title ∈ i.titles
      · obtain ⟨last, hsteps, hstored, herr⟩ := ih (i := i.skip r) ((detail_dryRun _ _).trans hdry)
        refine ⟨last, ?_, hstored, ?_⟩
        · rw [steps, step_of_taken (List.contains_iff_mem.mpr htaken)]
          exact hsteps
        · rw [herr, unseen_cons_of_mem htaken, skip, detail_err]
      · -- the title is not remembered, so that it is announced again when it comes again
        obtain ⟨last, hsteps, hstored, herr⟩ :=
          ih (i := { i with console := i.console.rehearse (announcement r) })
            (by rw [rehearse_eq hdry]; exact hdry)
        refine ⟨last, ?_, hstored, ?_⟩
        · rw [steps, step, if_neg (mt List.contains_iff_mem.mp htaken), if_pos hdry]
          exact hsteps
        · rw [herr, unseen_cons_of_not_mem htaken, rehearse_eq hdry, announcements, announcements,
            List.map_cons, String.join_cons, ← String.append_assoc]
          rfl

/-- The submissions that records are created as, behind those that are there. -/
theorem submissions_foldl_added (records : List ImportRecord) :
    ∃ rows, (records.foldl (added f) t).store.submissions = t.store.submissions ++ rows ∧
      rows.map SubmissionRow.title = records.map ImportRecord.title := by
  induction records generalizing t with
  | nil => exact ⟨[], by simp, rfl⟩
  | cons r rest ih =>
      obtain ⟨rows, hrows, htitles⟩ := ih (t := added f t r)
      refine ⟨newRow f t r :: rows, ?_, ?_⟩
      · rw [List.foldl_cons, hrows]
        simp [added, withSubmission, newRow]
      · rw [List.map_cons, List.map_cons, htitles]
        rfl

/-- **A rehearsal announces every record whose title is not in the batch, and the import creates
each of these titles once**, for any batch that can be listed. The two say the same exactly when no
new title is repeated in the file. The rehearsal leaves the store as it is. -/
theorem rehearsal_announces {text : String} {f : ImportFile} {t : TimedStore} {c c' : Console}
    (hread : ImportFile.read text = .ok f) (hopen : t.store.isOpen = true)
    (hintact : t.store.Intact) (hbatch : Store.CanList (t.store.batch f.project f.batch))
    (hids : t.clock.NewIds f.readings t.store)
    (hdry : c.dryRun = true) (hreal : c'.dryRun = false) :
    ∃ old announced rehearsed imported rows,
      t.store.list (inBatch f) = .ok old ∧
      announced = unseen (old.map Summary.title) f.records ∧
      run f t c = (rehearsed, none) ∧ rehearsed.stored = t ∧
      rehearsed.console.err = c.err ++ announcements announced ∧
      run f t c' = (imported, none) ∧
      imported.stored.store.submissions = t.store.submissions ++ rows ∧
      rows.map SubmissionRow.title = (announced.map ImportRecord.title).eraseDups ∧
      (rows.map SubmissionRow.title = announced.map ImportRecord.title ↔
        (announced.map ImportRecord.title).Nodup) := by
  have hsound := ImportFile.sound_of_read hread
  have hlist := list_inBatch hopen hbatch
  generalize (t.store.batch f.project f.batch).map SubmissionRow.summary = old at hlist
  have hready : Ready t (fresh (old.map Summary.title) f.records) :=
    ⟨hopen, hintact, fun r hr => (hsound r (mem_of_mem_fresh hr).1).indexes,
      hids.mono (readings_fresh_le _ _)⟩
  obtain ⟨rehearsed, hrehearsal, hunchanged, herr⟩ := rehearsal_steps (f := f)
    (i := { stored := t, console := c, titles := old.map Summary.title }) f.records hdry
  obtain ⟨imported, himport, hstored, -, -⟩ :=
    steps_eq (i := { stored := t, console := c', titles := old.map Summary.title }) hreal hready
  obtain ⟨rows, hrows, htitles⟩ := submissions_foldl_added (f := f) (t := t)
    (fresh (old.map Summary.title) f.records)
  have hannounced : (unseen (old.map Summary.title) f.records).map ImportRecord.title =
      (f.records.map ImportRecord.title).filter (· ∉ old.map Summary.title) := by
    rw [unseen, List.filter_map]
    rfl
  have hcreated : rows.map SubmissionRow.title =
      ((unseen (old.map Summary.title) f.records).map ImportRecord.title).eraseDups := by
    rw [htitles, titles_fresh, hannounced]
  refine ⟨old, _, _, _, rows, hlist, rfl, run_eq hlist hrehearsal, hunchanged, herr,
    run_eq hlist himport, ?_, hcreated, ?_⟩
  · exact (congrArg (·.store.submissions) hstored).trans hrows
  · rw [hcreated]
    exact ⟨fun heq => heq ▸ List.nodup_eraseDups _, List.eraseDups_of_nodup⟩

/-- The sample file gives a new title twice. -/
theorem sample_rehearsed :
    ∃ (old : List Summary) (announced : List ImportRecord) (rehearsed imported : Import)
        (rows : List SubmissionRow),
      old.map Summary.title = ["old"] ∧
      announced = unseen (old.map Summary.title) sampleFile.records ∧
      run sampleFile sampleStore { dryRun := true } = (rehearsed, none) ∧
      rehearsed.stored = sampleStore ∧ rehearsed.console.err = "" ++ announcements announced ∧
      run sampleFile sampleStore {} = (imported, none) ∧
      imported.stored.store.submissions = sampleStore.store.submissions ++ rows ∧
      rows.map SubmissionRow.title = ["new"] := by
  have hold : (sampleStore.store.list (inBatch sampleFile)).toOption.map
      (·.map Summary.title) = some ["old"] := by decide +kernel
  obtain ⟨old, announced, rehearsed, imported, rows, hlist, hannounced, hrehearsal, hunchanged,
    herr, himport, hrows, htitles, -⟩ := rehearsal_announces
      read_sampleText rfl intact_sampleStore (readable_sampleStore.canList _) newIds_sampleStore
      (show ({ dryRun := true } : Console).dryRun = true from rfl)
      (show ({} : Console).dryRun = false from rfl)
  rw [hlist] at hold
  have holds : old.map Summary.title = ["old"] := Option.some.inj hold
  refine ⟨old, announced, rehearsed, imported, rows, holds, hannounced, hrehearsal, hunchanged,
    herr, himport, hrows, ?_⟩
  rw [htitles, hannounced, holds]
  decide +kernel

/-- A file with one title twice. -/
def twiceFile : ImportFile :=
  { project := "p", batch := "b", submissions := some [{ title := "a" }, { title := "a" }] }

/-- For an empty store, the title is announced twice and created once. -/
theorem repeated_title_announced_twice :
    ImportFile.read "project: p\nbatch: b\nsubmissions:\n  - title: a\n  - title: a\n" =
        .ok twiceFile ∧
      (run twiceFile { clock := Clock.ofStart 0 0 } { dryRun := true }).1.console.err =
          "⚠ [DRY-RUN] Would create submission \"a\" (0 parts, 0 attachments)\n" ++
            "⚠ [DRY-RUN] Would create submission \"a\" (0 parts, 0 attachments)\n" ∧
      (run twiceFile { clock := Clock.ofStart 0 0 } {}).1.stored.store.submissions.map
        SubmissionRow.title = ["a"] := by
  decide +kernel

end ReviewQueue.Import
