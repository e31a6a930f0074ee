import ReviewQueue.Proofs.Domain.Codec
import ReviewQueue.Proofs.Store.Integrity
import ReviewQueue.Proofs.Yaml.Decode

/-!
# Files that are accepted

A file is decoded and then checked. `sound_of_read` says what is known of the records of a file that
passed both: the numbers of their people fit a word, and no record has two parts of one index.
-/

namespace ReviewQueue

open Yaml

/-- A record as an accepted file holds it. -/
structure ImportRecord.Sound (r : ImportRecord) : Prop where
  worker : ∀ p ∈ r.worker, p.Portable
  projectOwner : ∀ p ∈ r.projectOwner, p.Portable
  indexes : ((r.parts.getD []).map Part.index).Nodup

namespace ImportFile

theorem gives_person : Gives Person.Portable decodePerson := by
  refine gives_record Person.portable_blank ?_
  simp only [List.forall_mem_cons, List.not_mem_nil, false_implies, implies_true, and_true]
  exact ⟨gives_int.field _ (fun _ _ _ h => h),
    (gives_trivial _).field _ (fun _ _ h _ => h),
    (gives_trivial _).field _ (fun _ _ h _ => h),
    (gives_trivial _).field _ (fun _ _ h _ => h)⟩

/-- Records whose people have numbers that fit a word. -/
def PeopleFit (r : ImportRecord) : Prop :=
  (∀ p ∈ r.worker, p.Portable) ∧ ∀ p ∈ r.projectOwner, p.Portable

theorem gives_submission : Gives PeopleFit decodeSubmission := by
  have hblank : PeopleFit {} := ⟨by simp, by simp⟩
  refine gives_record hblank ?_
  -- all fields but the two people leave these as they are
  have other {α : Type} (name : String) (decode : Decoder α)
      (set : ImportRecord → α → ImportRecord)
      (hset : ∀ r a, (set r a).worker = r.worker ∧ (set r a).projectOwner = r.projectOwner) :
      (field name decode set).Keeps PeopleFit := by
    refine (gives_trivial decode).field name fun r a hr _ => ?_
    obtain ⟨hworker, howner⟩ := hset r a
    rwa [PeopleFit, hworker, howner]
  simp only [List.forall_mem_cons, List.not_mem_nil, false_implies, implies_true, and_true]
  refine ⟨other _ _ _ ?_, other _ _ _ ?_, ?_, ?_, other _ _ _ ?_, other _ _ _ ?_, other _ _ _ ?_,
    other _ _ _ ?_, other _ _ _ ?_⟩
  case refine_3 =>
    exact gives_person.field _ fun r p hr hp => ⟨fun q hq => Option.some.inj hq ▸ hp, hr.2⟩
  case refine_4 =>
    exact gives_person.field _ fun r p hr hp => ⟨hr.1, fun q hq => Option.some.inj hq ▸ hp⟩
  all_goals exact fun _ _ => ⟨rfl, rfl⟩

theorem gives_file : Gives (fun f => ∀ r ∈ f.records, PeopleFit r) decodeFile := by
  refine gives_record (by simp [records]) ?_
  simp only [List.forall_mem_cons, List.not_mem_nil, false_implies, implies_true, and_true]
  exact ⟨(gives_trivial _).field _ (fun _ _ h _ => h), (gives_trivial _).field _ (fun _ _ h _ => h),
    gives_submission.list.field _ (fun _ _ _ h => h)⟩

/-- Records that pass the check have one part for every index. -/
theorem indexes_of_recordsDefect {number : Nat} {records : List ImportRecord}
    (h : recordsDefect? number records = none) :
    ∀ r ∈ records, ((r.parts.getD []).map Part.index).Nodup := by
  induction records generalizing number with
  | nil => simp
  | cons r rest ih =>
      rw [recordsDefect?, Option.or_eq_none_iff] at h
      obtain ⟨hfirst, hrest⟩ := h
      refine List.forall_mem_cons.mpr ⟨?_, ih hrest⟩
      unfold recordDefect? at hfirst
      split at hfirst
      · cases hfirst
      · exact (Part.repeatedIndex?_eq_none_iff.mp (Option.map_eq_none_iff.mp hfirst)).1

/-- **What a file is known to hold once it is accepted.** -/
theorem sound_of_read {text : String} {f : ImportFile} (h : read text = .ok f) :
    ∀ r ∈ f.records, r.Sound := by
  unfold read at h
  cases hdecode : Yaml.read text >>= decodeFile with
  | error e => simp [hdecode] at h
  | ok o =>
      simp only [hdecode] at h
      split at h
      · cases h
      · rename_i hdefect
        obtain rfl := Except.ok.inj h
        have hpeople : ∀ r ∈ (o.getD {}).records, PeopleFit r := by
          cases o with
          | none => simp [records]
          | some f =>
              cases hread : Yaml.read text with
              | error e => simp [hread, bind, Except.bind] at hdecode
              | ok node =>
                  rw [hread] at hdecode
                  exact gives_file node f hdecode
        unfold defect? at hdefect
        split at hdefect
        · cases hdefect
        · intro r hr
          obtain ⟨hworker, howner⟩ := hpeople r hr
          exact ⟨hworker, howner, indexes_of_recordsDefect hdefect r hr⟩

end ImportFile
end ReviewQueue
