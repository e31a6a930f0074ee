import Mathlib.Data.List.Basic
import ReviewQueue.PidFile
import ReviewQueue.Proofs.Text.Blank
import ReviewQueue.Proofs.Text.Decimal

/-!
# Who owns the file of a running server

Processes acquire and release the file, in any order, and which of them are alive may change from
one call to the next. The owner is whom the file names: as long as it is alive and does not release
the file, no call by anyone changes it (`owner_keeps_file`).

* `read_ofPid` — the file that names a process reads back as that process;
* `acquire_eq_ok_iff` — a file is acquired exactly when it names no live process;
* `release_eq_ok_iff` — what a release leaves, and when it fails;
* `stop_eq_ok_iff` — when a server is stopped;
* `after_of_owned` — one call while there is a live owner that keeps the file;
* `afterCalls_of_acquired` — the calls that follow its acquisition.
-/

namespace ReviewQueue.PidFile

/-! ## One operation -/

/-- The file that names a process reads back as that process. -/
theorem read_ofPid {pid : Int} (h : fitsWord pid = true) : (ofPid pid).read = .ok pid := by
  -- neither a sign nor a digit is blank, so trimming drops the end of the line alone
  have hends (c : Char) (hc : c ∈ Text.numeral pid) : Text.isBlank c = false := by
    rcases Text.mem_numeral hc with rfl | hdigit
    · decide
    · simp only [Text.isDigit, Bool.and_eq_true, decide_eq_true_eq] at hdigit
      unfold Text.isBlank
      simp
      omega
  have htrim : Text.trim (Text.numeral pid ++ ['\n']) = Text.numeral pid := by
    rw [Text.trim_append_blank _ (by decide)]
    apply Text.trim_of_ends
    · exact fun c hc => hends c (List.mem_of_mem_head? hc)
    · exact fun c hc => hends c (List.mem_of_getLast? hc)
  unfold ofPid read
  simp only [String.toList_ofList, htrim, Text.readNumeral_numeral, h, if_true]

variable {f g : PidFile} {alive : Int → Bool} {pid owner : Int}

/-- A file that names no live process: there is no file, it holds something else than a number, or
the process that it names is dead. -/
def Unowned (f : PidFile) (alive : Int → Bool) : Prop :=
  ∀ owner, f.read = .ok owner → alive owner = false

/-- A live owner keeps everyone from acquiring the file. -/
theorem acquire_of_owned (hread : f.read = .ok owner) (hlive : alive owner = true) (pid : Int) :
    f.acquire alive pid = .error (.alreadyRunning owner) := by
  unfold acquire running
  rw [hread]
  simp only [hlive]

theorem acquire_of_unowned (h : f.Unowned alive) (pid : Int) :
    f.acquire alive pid = .ok (ofPid pid) := by
  unfold acquire running
  cases hread : f.read with
  | error e => rfl
  | ok owner => simp only [h owner hread]

/-- A file is acquired exactly when it names no live process, and then it names the new owner. -/
theorem acquire_eq_ok_iff : f.acquire alive pid = .ok g ↔ f.Unowned alive ∧ g = ofPid pid := by
  constructor
  · intro h
    have hunowned : f.Unowned alive := by
      intro owner hread
      by_contra hlive
      rw [acquire_of_owned hread (by simpa using hlive)] at h
      cases h
    rw [acquire_of_unowned hunowned] at h
    exact ⟨hunowned, (Except.ok.inj h).symm⟩
  · rintro ⟨hunowned, rfl⟩
    exact acquire_of_unowned hunowned pid

/-- The owner removes the file. -/
theorem release_of_owner (hread : f.read = .ok owner) : f.release owner = .ok ⟨none⟩ := by
  have hsome : ∃ text, f.content = some text := by
    cases hcontent : f.content with
    | none => simp [read, hcontent] at hread
    | some text => exact ⟨text, rfl⟩
  obtain ⟨text, hcontent⟩ := hsome
  unfold release remove
  simp only [hread, hcontent, if_true]

/-- A file that names another process is left alone. -/
theorem release_of_ne (hread : f.read = .ok owner) (hne : pid ≠ owner) :
    f.release pid = .ok f := by
  unfold release
  simp only [hread, if_neg (Ne.symm hne)]

/-- What a release leaves: nothing of a file that names the process, and every other file as it is.
Only of a file that holds something else than a number it is not told. -/
theorem release_eq_ok_iff : f.release pid = .ok g ↔
    (f.read = .ok pid ∧ g = ⟨none⟩) ∨
      (g = f ∧ (f.read = .error .noFile ∨ ∃ owner, f.read = .ok owner ∧ owner ≠ pid)) := by
  cases hread : f.read with
  | ok owner =>
      by_cases hpid : owner = pid
      · subst hpid
        rw [release_of_owner hread]
        simp [eq_comm]
      · rw [release_of_ne hread (Ne.symm hpid)]
        simp only [Except.ok.injEq, hpid, false_and, false_or, reduceCtorEq, ne_eq,
          exists_eq_left', not_false_iff, and_true]
        exact eq_comm
  | error e =>
      unfold release
      rw [hread]
      cases e <;> simp [eq_comm]

/-- A stop succeeds exactly when there is a live owner that ends, by itself or killed. Then there is
no file any more. -/
theorem stop_eq_ok_iff {ending : Int → Ending} : (f.stop alive ending).result = .ok g ↔
    g = ⟨none⟩ ∧ ∃ owner, f.read = .ok owner ∧ alive owner = true ∧
      (ending owner = .ended ∨ ending owner = .killed) := by
  constructor
  · intro h
    unfold stop running at h
    cases hread : f.read with
    | error e =>
        rw [hread] at h
        cases h
    | ok owner =>
        simp only [hread] at h
        cases hlive : alive owner with
        | false =>
            rw [hlive] at h
            cases h
        | true =>
            simp only [hlive] at h
            cases hending : ending owner with
            | ended | killed =>
                simp only [hending, release_of_owner hread, Except.ok.injEq] at h
                exact ⟨h.symm, owner, rfl, hlive, by simp [hending]⟩
            | unasked reason | unkilled reason =>
                rw [hending] at h
                cases h
  · rintro ⟨rfl, owner, hread, hlive, hending⟩
    unfold stop running
    simp only [hread, hlive]
    rcases hending with hending | hending <;> rw [hending] <;> exact release_of_owner hread

/-! ## Calls -/

/-- What a process asks for. -/
inductive Demand where
  | acquire (pid : Int)
  | release (pid : Int)
  deriving DecidableEq, Repr

/-- A call, and which processes are alive when it is made. -/
structure Call where
  alive : Int → Bool
  demand : Demand

/-- What a call gives: the file after it, or why it failed. -/
def Call.result (f : PidFile) (c : Call) : Except PidError PidFile :=
  match c.demand with
  | .acquire pid => f.acquire c.alive pid
  | .release pid => f.release pid

/-- The file after a call. One that fails leaves it as it was. -/
def Call.after (f : PidFile) (c : Call) : PidFile :=
  match c.result f with
  | .ok g => g
  | .error _ => f

/-- The file after calls. -/
def afterCalls (f : PidFile) (calls : List Call) : PidFile :=
  calls.foldl Call.after f

/-- A call while a process is alive, and by which that process does not release the file. -/
def Call.Spares (c : Call) (owner : Int) : Prop :=
  c.alive owner = true ∧ c.demand ≠ .release owner

/-- No call that spares the owner changes its file. -/
theorem after_of_owned (hread : f.read = .ok owner) {c : Call} (h : c.Spares owner) :
    c.after f = f := by
  obtain ⟨hlive, hdemand⟩ := h
  unfold Call.after Call.result
  cases hc : c.demand with
  | acquire pid => simp only [acquire_of_owned hread hlive]
  | release pid =>
      have hne : pid ≠ owner := by
        rintro rfl
        exact hdemand hc
      simp only [release_of_ne hread hne]

theorem afterCalls_of_owned (hread : f.read = .ok owner) {calls : List Call}
    (h : ∀ c ∈ calls, c.Spares owner) : afterCalls f calls = f := by
  induction calls with
  | nil => rfl
  | cons c rest ih =>
      have hfirst := after_of_owned hread (h c List.mem_cons_self)
      have hrest := ih fun d hd => h d (List.mem_cons_of_mem c hd)
      unfold afterCalls at hrest ⊢
      rw [List.foldl_cons, hfirst]
      exact hrest

/-- From an acquisition on, the calls that spare the owner leave its file. -/
theorem afterCalls_of_acquired {start acquired : PidFile} {before during : List Call}
    {alive : Int → Bool} (hword : fitsWord owner = true)
    (hacquired : Call.result (afterCalls start before) ⟨alive, .acquire owner⟩ = .ok acquired)
    (hspares : ∀ c ∈ during, c.Spares owner) :
    afterCalls start (before ++ ⟨alive, .acquire owner⟩ :: during) = ofPid owner := by
  obtain ⟨-, rfl⟩ := acquire_eq_ok_iff.mp hacquired
  have hafter : Call.after (afterCalls start before) ⟨alive, .acquire owner⟩ = ofPid owner := by
    unfold Call.after
    rw [hacquired]
  calc
    afterCalls start (before ++ ⟨alive, .acquire owner⟩ :: during)
    _ = afterCalls (Call.after (afterCalls start before) ⟨alive, .acquire owner⟩) during := by
      unfold afterCalls
      rw [List.foldl_append, List.foldl_cons]
    _ = afterCalls (ofPid owner) during := by rw [hafter]
    _ = ofPid owner := afterCalls_of_owned (read_ofPid hword) hspares

/-- A release by a process that the file does not name leaves it as it is, failing or not. -/
theorem after_release_of_not_named (h : f.read ≠ .ok pid) (alive : Int → Bool) :
    Call.after f ⟨alive, .release pid⟩ = f := by
  unfold Call.after Call.result
  simp only
  cases hresult : f.release pid with
  | error e => rfl
  | ok g =>
      rcases release_eq_ok_iff.mp hresult with ⟨hread, -⟩ | ⟨rfl, -⟩
      · exact absurd hread h
      · rfl

/-- **The owner keeps the file.** Start with any content and after any calls let a process acquire
the file. As long as it is alive and does not release it, the file reads back as that process, every
attempt to acquire it fails and names the owner, a release by another process is left without
effect, and its own release removes the file. At any time, a file that names no live process is
acquired by whoever asks, and no release removes a file that does not name who asks. -/
theorem owner_keeps_file (start : PidFile) (before during : List Call) (alive : Int → Bool)
    (owner : Int) (hword : fitsWord owner = true) {acquired : PidFile}
    (hacquired : Call.result (afterCalls start before) ⟨alive, .acquire owner⟩ = .ok acquired)
    (hspares : ∀ c ∈ during, c.Spares owner) :
    let f := afterCalls start (before ++ ⟨alive, .acquire owner⟩ :: during)
    f.read = .ok owner ∧
      (∀ c : Call, c.alive owner = true → ∀ pid, c.demand = .acquire pid →
        c.result f = .error (.alreadyRunning owner) ∧ c.after f = f) ∧
      (∀ pid, pid ≠ owner → f.release pid = .ok f) ∧
      f.release owner = .ok ⟨none⟩ ∧
      (∀ (g : PidFile) (live : Int → Bool) (pid : Int),
        ((∃ e, g.read = .error e) ∨ ∃ dead, g.read = .ok dead ∧ live dead = false) →
          g.acquire live pid = .ok (ofPid pid)) ∧
      ∀ (g : PidFile) (live : Int → Bool) (pid : Int), g.read ≠ .ok pid →
        Call.after g ⟨live, .release pid⟩ = g := by
  intro f
  have hfile : f = ofPid owner := afterCalls_of_acquired hword hacquired hspares
  have hread : f.read = .ok owner := by
    rw [hfile]
    exact read_ofPid hword
  refine ⟨hread, fun c hlive pid hdemand => ?_, fun pid hne => release_of_ne hread hne,
    release_of_owner hread, fun g live pid hstale => ?_,
    fun g live pid hnot => after_release_of_not_named hnot live⟩
  · have hresult : c.result f = .error (.alreadyRunning owner) := by
      unfold Call.result
      rw [hdemand]
      exact acquire_of_owned hread hlive pid
    refine ⟨hresult, ?_⟩
    unfold Call.after
    rw [hresult]
  · apply acquire_of_unowned
    intro other hother
    -- what cannot be read names nobody, and what names a dead process names no live one
    rcases hstale with ⟨e, he⟩ | ⟨dead, hdead, hnot⟩
    · rw [he] at hother
      cases hother
    · rw [hdead] at hother
      obtain rfl := Except.ok.inj hother
      exact hnot

/-- A file with stray text is acquired by process 42, which two others then meet. -/
theorem owner_keeps_file_from_stray_text :
    let alive : Int → Bool := fun pid => pid == 42
    let f := afterCalls ⟨some "none yet"⟩
      [⟨alive, .release 7⟩, ⟨alive, .acquire 42⟩, ⟨alive, .acquire 7⟩, ⟨alive, .release 8⟩]
    f.read = .ok 42 ∧ f.release 42 = .ok ⟨none⟩ := by
  intro alive f
  have hstray : read ⟨some "none yet"⟩ = .error (.invalid "none yet" .malformed) := by rfl
  have hleft : afterCalls ⟨some "none yet"⟩ [⟨alive, .release 7⟩] = ⟨some "none yet"⟩ := by
    show Call.after ⟨some "none yet"⟩ ⟨alive, .release 7⟩ = _
    apply after_release_of_not_named
    rw [hstray]
    exact nofun
  have hfirst : Call.result (afterCalls ⟨some "none yet"⟩ [⟨alive, .release 7⟩])
      ⟨alive, .acquire 42⟩ = .ok (ofPid 42) := by
    rw [hleft]
    show acquire alive ⟨some "none yet"⟩ 42 = _
    apply acquire_of_unowned
    intro owner hread
    rw [hstray] at hread
    cases hread
  have h := owner_keeps_file ⟨some "none yet"⟩ [⟨alive, .release 7⟩]
    [⟨alive, .acquire 7⟩, ⟨alive, .release 8⟩] alive 42 (by decide) hfirst (by
      intro c hc
      rcases List.mem_cons.mp hc with rfl | hc
      · exact ⟨rfl, by decide⟩
      · rw [List.mem_singleton.mp hc]
        exact ⟨rfl, by decide⟩)
  exact ⟨h.1, h.2.2.2.1⟩

end ReviewQueue.PidFile
