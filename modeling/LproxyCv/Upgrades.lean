import LproxyCv.Foundation.Bytes
import LproxyCv.Foundation.Run
import LproxyCv.Versions
import Mathlib.Logic.Function.Basic

set_option autoImplicit false

/-!
# Upgrades

The program is installed twice.  A process writes what it downloads into the file that it was not
started from, makes that executable, and has the script start it anew; the script starts the copy
that says it is the newer one.  What was downloaded is not looked at, and a process can end
between any two bytes that it writes; the script is also run by others at any time, and may find
the files as they were a while ago.

There is still a copy that can be started at any time (`Sound`), as the file of the process that
runs is never written, and no two processes run.
-/

namespace LproxyCv.Upgrades

open LproxyCv.Foundation LproxyCv.Versions Function

/-! ## An installation -/

structure File where
  content : Bytes
  executable : Bool
  deriving DecidableEq

/-- What a machine makes of a content: the version of the program, where it is one. -/
structure Loader where
  /-- the size of a word -/
  bits : Nat
  version : Bytes → Option String
  /-- the number of a program is not zero, which stands for a copy that does not answer -/
  version_pos : ∀ content v, version content = some v → 0 < getCopyVersion bits (some v)
  /-- and it is no negative one for the script -/
  version_lt : ∀ content v, version content = some v → getCopyVersion bits (some v) < 2 ^ 63

/-- The copy that a new version goes to. -/
def other : Copy → Copy
  | .a => .b
  | .b => .a

theorem other_ne (c : Copy) : c ≠ other c := by
  cases c <;> decide

/-- How far a process is with a download. -/
inductive Work where
  | idle
  /-- this is left to write of the body -/
  | writing (body rest : Bytes)
  /-- the file is still open -/
  | written (body : Bytes)
  | executable (body : Bytes)
  deriving DecidableEq

/-- The process that has the lock. -/
structure Process where
  copy : Copy
  /-- the file as it was when it was started -/
  image : File
  work : Work
  deriving DecidableEq

/-- How far a run of the script is. -/
inductive Script where
  | readA
  | readB (acopy : Option String)
  | start (copy : Copy)
  deriving DecidableEq

structure Install where
  files : Copy → Option File
  running : Option Process
  scripts : List Script

/-- The process has the file open. -/
def Process.opens (p : Process) (c : Copy) : Bool := p.work ≠ .idle ∧ c = other p.copy

/-- What happens. -/
inductive Event where
  /-- there is an answer with this body, and its file is created -/
  | create (body : Bytes)
  | write (n : Nat)
  | writeFails
  | writeEnds
  | chmod
  /-- the script is started, and the file is closed -/
  | restart
  /-- the process ends, for whatever reason -/
  | exit
  /-- something else runs the script -/
  | script
  | readA (i : Nat)
  | readB (i : Nat)
  | start (i : Nat)

section

variable (L : Loader)

/-- What the copy answers, when no process has it open. -/
def Loader.answer (file : Option File) : Option String :=
  file.bind fun f => if f.executable then L.version f.content else none

/-- What the script is told by a copy: a file that is open for writing does not run. -/
def Install.copyVersion (w : Install) (c : Copy) : Option String :=
  if w.running.any (·.opens c) then none else L.answer (w.files c)

/-- Change the file that the process writes. -/
def Install.change (w : Install) (p : Process) (file : Option File) (work : Work) : Install :=
  { w with
    files := update w.files (other p.copy) file
    running := some { p with work := work } }

inductive Step (w : Install) : Event → Install → Prop where
  /-- `File::create` keeps the mode of a file that there is -/
  | create {p : Process} (body : Bytes) : w.running = some p → p.work = .idle →
      Step w (.create body) (w.change p
        (some ⟨[], ((w.files (other p.copy)).map File.executable).getD false⟩)
        (.writing body body))
  | write {p : Process} {body rest : Bytes} (n : Nat) : w.running = some p →
      p.work = .writing body rest →
      Step w (.write n) (w.change p
        ((w.files (other p.copy)).map fun f => { f with content := f.content ++ rest.take n })
        (.writing body (rest.drop n)))
  | writeFails {p : Process} {body rest : Bytes} : w.running = some p →
      p.work = .writing body rest →
      Step w .writeFails { w with running := some { p with work := .idle } }
  | writeEnds {p : Process} {body : Bytes} : w.running = some p → p.work = .writing body [] →
      Step w .writeEnds { w with running := some { p with work := .written body } }
  | chmod {p : Process} {body : Bytes} : w.running = some p → p.work = .written body →
      Step w .chmod (w.change p
        ((w.files (other p.copy)).map fun f => { f with executable := true }) (.executable body))
  /-- also when the mode could not be changed -/
  | restart {p : Process} {body : Bytes} : w.running = some p →
      p.work = .written body ∨ p.work = .executable body →
      Step w .restart
        { w with running := some { p with work := .idle }, scripts := w.scripts ++ [.readA] }
  | exit {p : Process} : w.running = some p → Step w .exit { w with running := none }
  | script : Step w .script { w with scripts := w.scripts ++ [.readA] }
  | readA {i : Nat} : w.scripts[i]? = some .readA →
      Step w (.readA i) { w with scripts := w.scripts.set i (.readB (w.copyVersion L .a)) }
  | readB {i : Nat} {acopy : Option String} : w.scripts[i]? = some (.readB acopy) →
      Step w (.readB i)
        { w with
          scripts := w.scripts.set i (.start (getCopyRun L.bits acopy (w.copyVersion L .b))) }
  /-- the process that is started gets the lock -/
  | start {i : Nat} {c : Copy} {f : File} : w.scripts[i]? = some (.start c) → w.running = none →
      w.files c = some f → (L.answer (some f)).isSome = true →
      Step w (.start i)
        { w with running := some ⟨c, f, .idle⟩, scripts := w.scripts.eraseIdx i }
  /-- it does not, or there is none -/
  | startFails {i : Nat} {c : Copy} : w.scripts[i]? = some (.start c) →
      w.running.isSome = true ∨ w.copyVersion L c = none →
      Step w (.start i) { w with scripts := w.scripts.eraseIdx i }

end

/-! ## There is a copy that can be started -/

variable {L : Loader} {w w' : Install} {e : Event} {p : Process}

/-- The file is that of the download so far. -/
def Process.Holds (p : Process) (file : Option File) : Prop :=
  match p.work with
  | .idle => True
  | .writing body rest => ∃ f, file = some f ∧ f.content ++ rest = body
  | .written body => ∃ f, file = some f ∧ f.content = body
  | .executable body => file = some ⟨body, true⟩

/-- A process runs from a program that has not been changed since it was started, and where none
runs there is one that can be started. -/
structure Sound (L : Loader) (w : Install) : Prop where
  image : ∀ p, w.running = some p → w.files p.copy = some p.image
  program : ∀ p, w.running = some p → (L.answer (some p.image)).isSome = true
  download : ∀ p, w.running = some p → p.Holds (w.files (other p.copy))
  vacant : w.running = none → ∃ c, (L.answer (w.files c)).isSome = true

/-- Only the other file is written. -/
theorem Sound.change (h : Sound L w) (hp : w.running = some p) {file : Option File} {work : Work}
    (hholds : Process.Holds { p with work := work } file) : Sound L (w.change p file work) := by
  have hsame : update w.files (other p.copy) file p.copy = w.files p.copy :=
    update_of_ne (other_ne p.copy) _ _
  refine ⟨?_, ?_, ?_, ?_⟩
  · rintro _ ⟨⟩
    exact hsame.trans (h.image p hp)
  · rintro _ ⟨⟩
    exact h.program p hp
  · rintro _ ⟨⟩
    show Process.Holds _ (update w.files (other p.copy) file (other p.copy))
    rw [update_self]
    exact hholds
  · rintro ⟨⟩

/-- A process that goes on with something else. -/
theorem Sound.proceed (h : Sound L w) (hp : w.running = some p) {work : Work}
    (scripts : List Script)
    (hholds : Process.Holds { p with work := work } (w.files (other p.copy))) :
    Sound L { w with running := some { p with work := work }, scripts := scripts } := by
  refine ⟨?_, ?_, ?_, ?_⟩
  · rintro _ ⟨⟩
    exact h.image p hp
  · rintro _ ⟨⟩
    exact h.program p hp
  · rintro _ ⟨⟩
    exact hholds
  · rintro ⟨⟩

theorem Sound.scripts (h : Sound L w) (scripts : List Script) :
    Sound L { w with scripts := scripts } :=
  ⟨h.image, h.program, h.download, h.vacant⟩

theorem Sound.step (h : Sound L w) (hstep : Step L w e w') : Sound L w' := by
  cases hstep with
  | create body hp _ => exact h.change hp ⟨_, rfl, List.nil_append body⟩
  | @write p body rest n hp hwork =>
      refine h.change hp ?_
      have hdownload := h.download p hp
      rw [Process.Holds, hwork] at hdownload
      obtain ⟨f, hf, hbody⟩ := hdownload
      refine ⟨_, congrArg (Option.map _) hf, ?_⟩
      show f.content ++ rest.take n ++ rest.drop n = body
      rw [List.append_assoc, List.take_append_drop, hbody]
  | writeFails hp _ => exact h.proceed hp w.scripts trivial
  | @writeEnds p body hp hwork =>
      refine h.proceed hp w.scripts ?_
      have hdownload := h.download p hp
      rw [Process.Holds, hwork] at hdownload
      obtain ⟨f, hf, hbody⟩ := hdownload
      exact ⟨f, hf, (List.append_nil _).symm.trans hbody⟩
  | @chmod p body hp hwork =>
      refine h.change hp ?_
      have hdownload := h.download p hp
      rw [Process.Holds, hwork] at hdownload
      obtain ⟨f, hf, hbody⟩ := hdownload
      show Option.map _ (w.files (other p.copy)) = _
      rw [hf, ← hbody]
      rfl
  | restart hp _ => exact h.proceed hp _ trivial
  | @exit p hp =>
      refine ⟨?_, ?_, ?_, ?_⟩
      · rintro _ ⟨⟩
      · rintro _ ⟨⟩
      · rintro _ ⟨⟩
      · intro _
        refine ⟨p.copy, ?_⟩
        show (L.answer (w.files p.copy)).isSome = true
        rw [h.image p hp]
        exact h.program p hp
  | script => exact h.scripts _
  | readA _ => exact h.scripts _
  | readB _ => exact h.scripts _
  | @start i c f _ _ hf hprogram =>
      refine ⟨?_, ?_, ?_, ?_⟩
      · rintro _ ⟨⟩
        exact hf
      · rintro _ ⟨⟩
        exact hprogram
      · rintro _ ⟨⟩
        exact trivial
      · rintro ⟨⟩
  | startFails _ _ => exact h.scripts _

theorem Sound.run (h : Sound L w) {es : List Event} (hrun : Run (Step L) w es w') : Sound L w' :=
  hrun.preserves (I := Sound L) (fun _ _ _ hs hstep => hs.step hstep) h

/-! ## A download stays -/

/-- The file of a copy has what `f` has, and none is being written. -/
structure Complete (c : Copy) (f : File) (w : Install) : Prop where
  file : ∃ f', w.files c = some f' ∧ f'.content = f.content ∧
    (f.executable = true → f'.executable = true)
  closed : ∀ p, w.running = some p → ∀ body rest, p.work ≠ .writing body rest

variable {c : Copy} {f : File}

/-- Where the files are left alone. -/
theorem Complete.frame (h : Complete c f w) (hfiles : w'.files = w.files)
    (hclosed : ∀ p, w'.running = some p → ∀ body rest, p.work ≠ .writing body rest) :
    Complete c f w' :=
  ⟨hfiles ▸ h.file, hclosed⟩

/-- Only the next download changes what is there. -/
theorem Complete.step (h : Complete c f w) (hstep : Step L w e w')
    (hcreate : ∀ body, e ≠ .create body) : Complete c f w' := by
  cases hstep with
  | create body _ _ => exact absurd rfl (hcreate body)
  | write _ hp hwork => exact absurd hwork (h.closed _ hp _ _)
  | writeFails hp hwork => exact absurd hwork (h.closed _ hp _ _)
  | writeEnds hp hwork => exact absurd hwork (h.closed _ hp _ _)
  | @chmod p body hp _ =>
      refine ⟨?_, by rintro _ ⟨⟩ _ _ ⟨⟩⟩
      obtain ⟨f', hf', hcontent, hmode⟩ := h.file
      by_cases hc : c = other p.copy
      · subst hc
        refine ⟨{ f' with executable := true }, ?_, hcontent, fun _ => rfl⟩
        simp only [Install.change, update_self, hf', Option.map_some]
      · exact ⟨f', (update_of_ne hc _ _).trans hf', hcontent, hmode⟩
  | restart _ _ => exact h.frame rfl (by rintro _ ⟨⟩ _ _ ⟨⟩)
  | exit _ => exact h.frame rfl (by rintro _ ⟨⟩)
  | script => exact h.frame rfl h.closed
  | readA _ => exact h.frame rfl h.closed
  | readB _ => exact h.frame rfl h.closed
  | start _ _ _ _ => exact h.frame rfl (by rintro _ ⟨⟩ _ _ ⟨⟩)
  | startFails _ _ => exact h.frame rfl h.closed

theorem Complete.run (h : Complete c f w) {es : List Event} (hrun : Run (Step L) w es w')
    (hcreate : ∀ body, Event.create body ∉ es) : Complete c f w' := by
  have hlabels : ∀ e ∈ es, ∀ body, e ≠ Event.create body := by
    rintro _ he body rfl
    exact hcreate body he
  exact (hrun.restrict hlabels).preserves (I := Complete c f)
    (fun _ _ _ hs hstep => hs.step hstep.1 hstep.2) h

/-- What has been written is complete. -/
theorem Sound.complete (h : Sound L w) (hp : w.running = some p) {body : Bytes}
    (hwork : p.work = .written body ∨ p.work = .executable body) :
    Complete (other p.copy) ⟨body, p.work = .executable body⟩ w := by
  have hdownload := h.download p hp
  rcases hwork with hwork | hwork
  · rw [Process.Holds, hwork] at hdownload
    obtain ⟨f, hf, hbody⟩ := hdownload
    refine ⟨⟨f, hf, hbody, ?_⟩, ?_⟩
    · simp [hwork]
    · intro _ hp' _ _
      cases hp.symm.trans hp'
      simp [hwork]
  · rw [Process.Holds, hwork] at hdownload
    refine ⟨⟨_, hdownload, rfl, fun _ => rfl⟩, ?_⟩
    intro _ hp' _ _
    cases hp.symm.trans hp'
    simp [hwork]

/-! ## The script starts the newer one -/

/-- The number of a file, as the script compares it. -/
def Loader.number (L : Loader) (file : Option File) : Nat := getCopyVersion L.bits (L.answer file)

theorem Loader.number_pos {file : Option File} :
    0 < L.number file ↔ (L.answer file).isSome = true := by
  rw [Loader.number]
  cases hanswer : L.answer file with
  | none => simp [getCopyVersion]
  | some v =>
      refine ⟨fun _ => rfl, fun _ => ?_⟩
      obtain ⟨f, _, hf⟩ := Option.bind_eq_some_iff.mp hanswer
      split at hf
      · exact L.version_pos f.content v hf
      · cases hf

theorem Loader.number_lt (file : Option File) : L.number file < 2 ^ 63 := by
  rw [Loader.number]
  cases hanswer : L.answer file with
  | none => exact Nat.two_pow_pos 63
  | some v =>
      obtain ⟨f, _, hf⟩ := Option.bind_eq_some_iff.mp hanswer
      split at hf
      · exact L.version_lt f.content v hf
      · cases hf

/-- The copy that the script chooses when nothing changes meanwhile. -/
def Install.newest (L : Loader) (w : Install) : Copy :=
  getCopyRun L.bits (L.answer (w.files .a)) (L.answer (w.files .b))

theorem number_le_newest (L : Loader) (w : Install) (c : Copy) :
    L.number (w.files c) ≤ L.number (w.files (w.newest L)) := by
  have hgt := gt_iff (L.number_lt (w.files .b)) (L.number_lt (w.files .a))
  unfold Install.newest getCopyRun
  split
  · rename_i hlt
    cases c with
    | a => exact Nat.le_of_lt (hgt.mp hlt)
    | b => exact Nat.le_refl _
  · rename_i hnot
    cases c with
    | a => exact Nat.le_refl _
    | b => exact Nat.le_of_not_lt fun hlt => hnot (hgt.mpr hlt)

/-- End the process, if there is one, and run the script. -/
def Install.restarting (w : Install) : List Event :=
  (if w.running.isSome then [.exit] else []) ++
    [.script, .readA w.scripts.length, .readB w.scripts.length, .start w.scripts.length]

theorem run_script (hvacant : w.running = none)
    (hsome : ∃ c, (L.answer (w.files c)).isSome = true) :
    ∃ f, w.files (w.newest L) = some f ∧
      Run (Step L) w
        [.script, .readA w.scripts.length, .readB w.scripts.length, .start w.scripts.length]
        { w with running := some ⟨w.newest L, f, .idle⟩ } := by
  have hprogram : (L.answer (w.files (w.newest L))).isSome = true := by
    obtain ⟨c, hc⟩ := hsome
    exact Loader.number_pos.mp
      (Nat.lt_of_lt_of_le (Loader.number_pos.mpr hc) (number_le_newest L w c))
  cases hf : w.files (w.newest L) with
  | none =>
      rw [hf] at hprogram
      cases hprogram
  | some f =>
      refine ⟨f, rfl, ?_⟩
      have hversion : ∀ c scripts, Install.copyVersion L { w with scripts := scripts } c =
          L.answer (w.files c) := by
        intro c scripts
        rw [Install.copyVersion, hvacant]
        rfl
      have hat : ∀ s : Script, (w.scripts ++ [s])[w.scripts.length]? = some s := fun s =>
        List.getElem?_concat_length
      have hset : ∀ s s' : Script,
          (w.scripts ++ [s]).set w.scripts.length s' = w.scripts ++ [s'] := by
        intro s s'
        rw [List.set_append_right _ _ (Nat.le_refl _), Nat.sub_self]
        rfl
      have herase : ∀ s : Script, (w.scripts ++ [s]).eraseIdx w.scripts.length = w.scripts := by
        intro s
        rw [List.eraseIdx_append_of_length_le (Nat.le_refl _), Nat.sub_self]
        exact List.append_nil _
      have hreadA : Step L { w with scripts := w.scripts ++ [.readA] } (.readA w.scripts.length)
          { w with scripts := w.scripts ++ [.readB (L.answer (w.files .a))] } := by
        have hstep := Step.readA (L := L) (w := { w with scripts := w.scripts ++ [.readA] })
          (hat .readA)
        rwa [hversion, hset] at hstep
      have hreadB : Step L { w with scripts := w.scripts ++ [.readB (L.answer (w.files .a))] }
          (.readB w.scripts.length) { w with scripts := w.scripts ++ [.start (w.newest L)] } := by
        have hstep := Step.readB (L := L)
          (w := { w with scripts := w.scripts ++ [.readB (L.answer (w.files .a))] }) (hat _)
        rwa [hversion, hset] at hstep
      have hstart : Step L { w with scripts := w.scripts ++ [.start (w.newest L)] }
          (.start w.scripts.length) { w with running := some ⟨w.newest L, f, .idle⟩ } := by
        have hstep := Step.start (L := L)
          (w := { w with scripts := w.scripts ++ [.start (w.newest L)] }) (hat _) hvacant hf
          (hf ▸ hprogram)
        rwa [herase] at hstep
      exact .cons .script (.cons hreadA (.cons hreadB (.cons hstart (.nil _))))

/-- In every run of an installation of programs whose numbers are from 1 to `2 ^ 63 - 1`, whatever
is downloaded, and wherever processes end: the file of the process that runs is as it was when it
was started; a download that was written to its end is there, byte for byte, and executable once
it has been made so, until the next one is begun, whatever is restarted meanwhile; and when the
process is ended and the script is run, the program of the greatest number that there is runs. -/
theorem run_upgrades {w₀ : Install} (h₀ : Sound L w₀) {es : List Event}
    (hrun : Run (Step L) w₀ es w) :
    (∀ p, w.running = some p → w.files p.copy = some p.image) ∧
      (∀ p body, w.running = some p → p.work = .written body ∨ p.work = .executable body →
        ∀ es' w', Run (Step L) w es' w' → (∀ body', Event.create body' ∉ es') →
          ∃ f, w'.files (other p.copy) = some f ∧ f.content = body ∧
            (p.work = .executable body → f.executable = true)) ∧
      ∃ w' p, Run (Step L) w w.restarting w' ∧ w'.files = w.files ∧ w'.running = some p ∧
        w.files p.copy = some p.image ∧ ∀ c, L.number (w.files c) ≤ L.number (some p.image) := by
  have h := h₀.run hrun
  refine ⟨h.image, ?_, ?_⟩
  · intro p body hp hwork es' w' hrest hcreate
    obtain ⟨f, hf, hcontent, hmode⟩ := ((h.complete hp hwork).run hrest hcreate).file
    exact ⟨f, hf, hcontent, fun hexecutable => hmode (decide_eq_true hexecutable)⟩
  · have hvacant : ∃ w₁, Run (Step L) w (if w.running.isSome then [.exit] else []) w₁ ∧
        w₁ = { w with running := none } ∧ Sound L w₁ := by
      cases hp : w.running with
      | none =>
          refine ⟨w, .nil w, ?_, h⟩
          rw [← hp]
      | some p =>
          have hexit : Step L w .exit { w with running := none } := .exit hp
          exact ⟨_, .cons hexit (.nil _), rfl, h.step hexit⟩
    obtain ⟨w₁, hfirst, rfl, hsound⟩ := hvacant
    obtain ⟨f, hf, hrest⟩ := run_script (L := L) (w := { w with running := none }) rfl
      (hsound.vacant rfl)
    refine ⟨_, _, hfirst.append hrest, rfl, rfl, hf, ?_⟩
    intro c
    rw [← hf]
    exact number_le_newest L w c

/-! ### An upgrade -/

/-- Two programs. -/
def twoBuilds : Loader where
  bits := 64
  version := fun content =>
    if content = [1] then some "1.0.0" else if content = [2] then some "1.0.1" else none
  version_pos := by
    intro content v hv
    split at hv
    · cases hv
      decide +kernel
    · split at hv
      · cases hv
        decide +kernel
      · cases hv
  version_lt := by
    intro content v hv
    split at hv
    · cases hv
      decide +kernel
    · split at hv
      · cases hv
        decide +kernel
      · cases hv

/-- The first one runs. -/
def installed : Install where
  files := fun c => match c with
    | .a => some ⟨[1], true⟩
    | .b => none
  running := some ⟨.a, ⟨[1], true⟩, .idle⟩
  scripts := []

theorem sound_installed : Sound twoBuilds installed where
  image := by
    rintro _ ⟨⟩
    rfl
  program := by
    rintro _ ⟨⟩
    decide +kernel
  download := by
    rintro _ ⟨⟩
    exact trivial
  vacant := by
    rintro ⟨⟩

/-- The second one is downloaded; after a restart it is there, and runs. -/
theorem run_upgrades_newer : ∃ es w w' p f, Run (Step twoBuilds) installed es w ∧
    Run (Step twoBuilds) w w.restarting w' ∧ w'.files .b = some f ∧ f.content = [2] ∧
    w'.running = some p ∧ p.image = ⟨[2], true⟩ := by
  have hcreate := Step.create (L := twoBuilds) (w := installed) [2] rfl rfl
  have hrun := Run.cons hcreate (.cons (.write 1 rfl rfl) (.cons (.writeEnds rfl rfl)
    (.cons (.chmod rfl rfl) (.nil _))))
  obtain ⟨_, hdone, w', p, hrestart, _, hp, himage, hmost⟩ := run_upgrades sound_installed hrun
  obtain ⟨f, hf, hcontent, _⟩ := hdone _ [2] rfl (.inr rfl) _ _ hrestart
    (by simp [Install.restarting])
  refine ⟨_, _, w', p, f, hrun, hrestart, hf, hcontent, hp, ?_⟩
  have hnewer := hmost .b
  cases hcopy : p.copy with
  | a =>
      rw [hcopy] at himage
      rw [← himage] at hnewer
      exact absurd hnewer (by decide +kernel)
  | b =>
      rw [hcopy] at himage
      exact (Option.some.inj himage).symm

end LproxyCv.Upgrades
