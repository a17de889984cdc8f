import Retrial.Proofs.Additions
import Retrial.Proofs.FreshLogs
import Retrial.Shell.Executor

/-!
# Where logs are written and read

The path of a log is taken from the directory of the supervisor when the log is
cleared and loaded, and from the directory of the child when it is written. Both
lead to the same place where the child has no directory of its own, or one of
the directories that are given is absolute. With two relative ones they part:
the path leads into the child's directory from the supervisor's, and is taken
from within it again.
-/

set_option autoImplicit false

namespace Retrial

namespace Path

theorem isAbsolute_append {base : String} (h : isAbsolute base = true) (path : String) :
    isAbsolute (base ++ path) = true := by
  unfold isAbsolute at h ⊢
  cases hb : base.toList with
  | nil => simp [hb] at h
  | cons c rest =>
    rw [hb] at h
    rw [String.toList_append, hb]
    exact h

theorem isAbsolute_join {base : String} (h : isAbsolute base = true) (path : String) :
    isAbsolute (join base path) = true := by
  unfold join
  split
  · assumption
  · split
    · next he =>
      rw [String.isEmpty_iff.1 he] at h
      cases h
    · split
      · exact isAbsolute_append h path
      · rw [String.append_assoc]
        exact isAbsolute_append h _

end Path

def Executor.StaysPut {Memory : Type} (x : Executor Memory) : Prop :=
  ∀ q files memory, (x.run q files memory).2.1.workingDirectory = files.workingDirectory

namespace Shell

variable {files inside : Files} {cwd : Option String}

theorem enter_eq_ok (h : enter files cwd = .ok inside) :
    inside = files.seenFrom inside.workingDirectory ∧
      (cwd = none → inside.workingDirectory = files.workingDirectory) := by
  unfold enter at h
  split at h
  · cases h
    exact ⟨rfl, fun _ => rfl⟩
  · split at h
    · cases h
    · split at h
      · cases h
        exact ⟨rfl, fun hn => by cases hn⟩
      · cases h
      · cases h

theorem enter_of_prepare {env : Environment} {q : Request} {program : String}
    {args argv : List String} (h : prepare files env q program args = .ok (inside, argv)) :
    enter files q.cwd = .ok inside := by
  unfold prepare at h
  cases hp : programPath files q program with
  | error fault =>
    rw [hp] at h
    cases h
  | ok path =>
    rw [hp] at h
    simp only [bind, Except.bind] at h
    split at h
    · cases h
    · cases he : enter files q.cwd with
      | error fault =>
        rw [he] at h
        cases h
      | ok found =>
        rw [he] at h
        simp only [pure, Except.pure] at h
        split at h
        · cases h
        · split at h
          · cases h
          · cases h
            rfl

theorem executor_staysPut (inherited : Environment) : (executor inherited).StaysPut := by
  intro q files clock
  change (perform inherited q files clock).2.1.workingDirectory = files.workingDirectory
  unfold perform
  split
  · rfl
  · dsimp only
    split <;> rfl

theorem executor_loadsLogs (inherited : Environment) : (executor inherited).LoadsLogs := by
  intro q files clock o left clock' h
  change perform inherited q files clock = _ at h
  unfold perform at h
  split at h
  · cases h
  · dsimp only at h
    split at h
    · cases h
    · cases h
      cases q.logPath <;> rfl

end Shell

variable {Memory : Type} {s : Setup} {x : Executor Memory} {files before found last : Files}
  {memory : Memory} {n : Nat} {kind : AttemptKind} {path : String} {calls : List Call}

/-- The directories of the child and of the logs are not both taken from where a
process stands. -/
def Setup.Anchored (s : Setup) : Prop :=
  ∀ cwd, s.cwd = some cwd → Path.isAbsolute cwd = true ∨ Path.isAbsolute s.logDir = true

theorem Setup.Anchored.isAbsolute_logPath (h : s.Anchored) (hc : s.cwd ≠ none)
    (hp : (s.request n kind).logPath = some path) : Path.isAbsolute path = true := by
  obtain ⟨cwd, hc⟩ := Option.ne_none_iff_exists'.1 hc
  have hd : Path.isAbsolute s.logDirectory = true := by
    unfold Setup.logDirectory
    rw [hc]
    dsimp only
    split
    · assumption
    · next hn => exact Path.isAbsolute_join ((h cwd hc).resolve_right hn) s.logDir
  obtain ⟨namer, hm, rfl⟩ := Option.map_eq_some_iff.1 hp
  obtain ⟨name, -, rfl⟩ := Option.map_eq_some_iff.1 hm
  exact Path.isAbsolute_join hd _

theorem Setup.prepare_workingDirectory (h : s.prepare n before = .ok found) :
    found.workingDirectory = before.workingDirectory := by
  cases hn : s.naming with
  | fixed =>
    rw [Setup.prepare_fixed hn] at h
    cases h
    rfl
  | unique stamp =>
    cases hp : (s.request n .fullRun).logPath with
    | none =>
      rw [Setup.prepare_of_no_log hp] at h
      cases h
      rfl
    | some path => exact (roomFor_of_prepare hn hp h).workingDirectory

theorem Calls.workingDirectory {call : Call}
    (hx : x.StaysPut) (h : Calls s x n files memory calls last) (hc : call ∈ calls) :
    call.before.workingDirectory = files.workingDirectory ∧
      call.found.workingDirectory = files.workingDirectory ∧
      call.left.workingDirectory = files.workingDirectory := by
  induction h with
  | nil => cases hc
  | @cons n kind before found left last memory memory' answer calls hp hr _ ih =>
    have hf := Setup.prepare_workingDirectory hp
    have hl : left.workingDirectory = before.workingDirectory := by
      have hw := hx (s.request (n + 1) kind) found memory
      rw [hr] at hw
      exact hw.trans hf
    cases hc with
    | head => exact ⟨rfl, hf, hl⟩
    | tail _ hc =>
      rw [← hl]
      exact ih hc

theorem Request.additions_of_logPath {q : Request} (h : q.logPath = some path) :
    ∃ behind, q.additions = ["-o", path ++ ",xml", "-o", "-,txt"] ++ behind := by
  unfold additions
  rw [h]
  exact ⟨_, rfl⟩

theorem Setup.args_request (hp : (s.request n kind).logPath = some path) :
    ∃ behind, (s.request n kind).args = Invocation.leadArgs s.invocation.command ++
      (if s.invocation.command.hasSeparator then [Command.separatorArg] else []) ++
      s.invocation.command.testArgs ++ ["-o", path ++ ",xml", "-o", "-,txt"] ++ behind := by
  obtain ⟨behind, ha⟩ := Request.additions_of_logPath hp
  have hi := s.injected_request n kind
  rw [ha] at hi
  have hq : (s.request n kind).args =
      s.invocation.args ⟨(s.request n kind).logPath, kind.verbose, kind.selection⟩ := rfl
  rw [hq, Invocation.args, hi]
  exact ⟨behind, by simp⟩

/-- Where the file of a log is for those who deal with it. It is the one that the
child is told of, wherever the child stands and whatever the files have become; and
it is the one that is cleared before the attempt and loaded after it. -/
structure SharesLog (s : Setup) (home : Place) (call : Call) (path : String) : Prop where
  told : ∃ behind, call.request.args = Invocation.leadArgs s.invocation.command ++
    (if s.invocation.command.hasSeparator then [Command.separatorArg] else []) ++
    s.invocation.command.testArgs ++ ["-o", path ++ ",xml", "-o", "-,txt"] ++ behind
  stays : call.before.workingDirectory = home ∧ call.found.workingDirectory = home ∧
    call.left.workingDirectory = home
  child : ∀ env program args inside argv,
    Shell.prepare call.found env call.request program args = .ok (inside, argv) →
    s.Anchored ∨ inside.workingDirectory = home →
    ∀ tree : Files, tree.LeadsAlike path inside.workingDirectory home
  parts : ∀ env program args inside argv,
    Shell.prepare call.found env call.request program args = .ok (inside, argv) →
    inside.workingDirectory ≠ home → Path.isAbsolute path = false →
    (∀ name ∈ Path.segments path, Files.IsPlain name) →
    ∀ tree : Files, (∀ place target, tree.entryAt? place ≠ some (.link target)) →
    ∀ there here, (tree.seenFrom inside.workingDirectory).locate path = .ok there →
      (tree.seenFrom home).locate path = .ok here → there ≠ here
  cleared : ∀ stamp, s.naming = .unique stamp → RoomFor path call.before call.found
  loaded : ∀ o, call.answer = .ok o → o.log = LogState.load call.left path

/-- The supervisor and the child mean the same file by the path of a log, for every
attempt that is asked to write one, unless both the directory of the child and
that of the logs are relative paths and lead away from the supervisor's own. -/
theorem child_and_supervisor_share_logs (hx : x.LoadsLogs) (hw : x.StaysPut) (s : Setup)
    (listen : Listener) (files : Files) (memory : Memory) : ∃ start calls last,
      Told s x 0 start memory (supervise s x listen files memory) calls last ∧
      ∀ call ∈ calls, ∀ path, call.request.logPath = some path →
        SharesLog s files.workingDirectory call path := by
  obtain ⟨start, calls, last, hs, ht⟩ :=
    @told_supervise Memory s x listen files memory
  have hd : start.workingDirectory = files.workingDirectory := by
    cases hs with
    | inl hs => rw [hs]
    | inr hs => exact (Setup.makeLogDirectory_keeps hs).workingDirectory
  apply Exists.intro start
  apply Exists.intro calls
  apply Exists.intro last
  apply And.intro ht
  intro call hc path hp
  obtain ⟨m, kind, hq, hr, before, after, hrun⟩ := ht.made.mem hc
  have hhome := ht.made.workingDirectory hw hc
  rw [hd] at hhome
  constructor
  case told =>
    rw [hq] at hp ⊢
    exact Setup.args_request hp
  case stays => exact hhome
  case child =>
    intro env program args inside argv hi ha tree
    by_cases hd : inside.workingDirectory = files.workingDirectory
    · rw [hd]
      exact ⟨rfl, rfl⟩
    · have he := Shell.enter_eq_ok (Shell.enter_of_prepare hi)
      have hcwd : s.cwd ≠ none := by
        intro hn
        have hcwd : call.request.cwd = none := by
          rw [hq]
          exact hn
        exact hd ((he.2 hcwd).trans hhome.2.1)
      have hpath : Path.isAbsolute path = true := by
        rw [hq] at hp
        exact (ha.resolve_right hd).isAbsolute_logPath hcwd hp
      exact Files.leadsAlike_of_isAbsolute hpath _ _
  case parts =>
    intro env program args inside argv _ hd hr hn tree hl there here hthere hhere
    exact Files.parts_of_plain hl hr hn hthere hhere hd
  case cleared =>
    intro stamp hn
    rw [hq] at hp
    exact roomFor_of_prepare hn hp hr
  case loaded =>
    intro o ho
    rw [hx _ _ _ _ _ _ (ho ▸ hrun), hp]
    rfl

/-- A run whose first attempt can be prepared makes it, whatever comes of it. -/
theorem head?_requests_supervise {start : Files} (hv : s.policy.fault? = none)
    (he : s.existingLog = none) (hm : s.makeLogDirectory files = .ok start)
    (hp : s.prepare 1 start = .ok found) :
    (supervise s x .willing files memory).requests.head? = some (s.request 1 .fullRun) := by
  unfold supervise
  rw [hv, hm]
  dsimp only [Listener.willing]
  unfold begin
  rw [he]
  dsimp only [Run.heard_requests]
  obtain ⟨answer, left, memory', hx⟩ :
      ∃ answer left memory', x.run (s.request 1 .fullRun) found memory = (answer, left, memory') :=
    ⟨_, _, _, rfl⟩
  cases answer with
  | error fault =>
    have ha : attemptOnce s x .willing ⟨0, 0, 1⟩ Step.fullRun.kind start memory = .stopped _ :=
      attemptOnce_eq_iff.2 (.unrun ⟨hp, rfl⟩ hx)
    rw [proceed_stopped ha]
    rfl
  | ok o =>
    have ha : attemptOnce s x .willing ⟨0, 0, 1⟩ Step.fullRun.kind start memory =
        .done _ _ _ _ _ := attemptOnce_eq_iff.2 (.done ⟨hp, rfl⟩ hx rfl)
    rw [proceed_done ha, publish_willing]
    rfl

namespace Rehearsal

def withOwnDirectory : Setup := { setup .standard with logDir := "logs", cwd := some "sub" }

def nestedFiles : Files :=
  [["sub"], ["sub", "logs"], ["sub", "sub"], ["sub", "sub", "logs"]].foldl
    (fun files names => files.put ("work" :: names) .directory) .empty

theorem makeLogDirectory_withOwnDirectory :
    withOwnDirectory.makeLogDirectory nestedFiles = .ok nestedFiles := by
  have hl : nestedFiles.locate "sub/logs" = .ok ["work", "sub", "logs"] :=
    Files.follow_of_descends rfl
  apply Setup.makeLogDirectory_of_isDirectory rfl
  change nestedFiles.isDirectory "sub/logs" = true
  rw [Files.isDirectory, Files.find?, hl]
  rfl

theorem requests_withOwnDirectory :
    (supervise withOwnDirectory broken .willing nestedFiles ()).requests =
      [withOwnDirectory.request 1 .fullRun] :=
  requests_broken rfl rfl makeLogDirectory_withOwnDirectory (Setup.prepare_fixed rfl 1 _)

end Rehearsal

theorem child_and_supervisor_share_logs_of_shell :
    (Shell.executor []).LoadsLogs ∧ (Shell.executor []).StaysPut ∧ ∃ start calls last,
      Told Rehearsal.withOwnDirectory (Shell.executor []) 0 start 0 (supervise
        Rehearsal.withOwnDirectory (Shell.executor []) .willing Rehearsal.nestedFiles 0) calls last ∧
      ∃ call ∈ calls, call.request.logPath = some "sub/logs/t.xml" ∧
        SharesLog Rehearsal.withOwnDirectory ["work"] call "sub/logs/t.xml" := by
  obtain ⟨start, calls, last, ht, hc⟩ := child_and_supervisor_share_logs
    (Shell.executor_loadsLogs []) (Shell.executor_staysPut []) Rehearsal.withOwnDirectory .willing
    Rehearsal.nestedFiles 0
  have hq : (supervise Rehearsal.withOwnDirectory (Shell.executor []) .willing
      Rehearsal.nestedFiles 0).requests.head? = some (Rehearsal.withOwnDirectory.request 1 .fullRun) :=
    head?_requests_supervise rfl rfl Rehearsal.makeLogDirectory_withOwnDirectory
      (Setup.prepare_fixed rfl 1 _)
  rw [← ht.requests, List.head?_map, Option.map_eq_some_iff] at hq
  obtain ⟨call, hm, hr⟩ := hq
  have hp : call.request.logPath = some "sub/logs/t.xml" := by
    rw [hr]
    rfl
  have hin := List.mem_of_head? hm
  exact ⟨Shell.executor_loadsLogs [], Shell.executor_staysPut [], start, calls, last, ht, call, hin,
    hp, hc call hin _ hp⟩

/-- With two relative directories the child looks for its log below its own directory,
and the supervisor does not. -/
theorem relative_directories_part :
    ∃ q ∈ (supervise Rehearsal.withOwnDirectory Rehearsal.broken .willing Rehearsal.nestedFiles
        ()).requests,
      q.args = ["t", "-o", "sub/logs/t.xml,xml", "-o", "-,txt"] ∧
      q.logPath = some "sub/logs/t.xml" ∧
      ∃ inside, Shell.enter Rehearsal.nestedFiles q.cwd = .ok inside ∧
        Rehearsal.nestedFiles.locate "sub/logs/t.xml" = .ok ["work", "sub", "logs", "t.xml"] ∧
        inside.locate "sub/logs/t.xml" = .ok ["work", "sub", "sub", "logs", "t.xml"] := by
  have hc : Rehearsal.nestedFiles.locate "sub" = .ok ["work", "sub"] :=
    Files.follow_of_descends rfl
  have hs : Rehearsal.nestedFiles.locate "sub/logs/t.xml" = .ok ["work", "sub", "logs", "t.xml"] :=
    Files.follow_of_descends rfl
  have hi : (Rehearsal.nestedFiles.seenFrom ["work", "sub"]).locate "sub/logs/t.xml" =
      .ok ["work", "sub", "sub", "logs", "t.xml"] := Files.follow_of_descends rfl
  have he : Shell.enter Rehearsal.nestedFiles (some "sub") =
      .ok (Rehearsal.nestedFiles.seenFrom ["work", "sub"]) := by
    rw [Shell.enter, hc]
    rfl
  have hq : Rehearsal.withOwnDirectory.request 1 .fullRun ∈ (supervise Rehearsal.withOwnDirectory
      Rehearsal.broken .willing Rehearsal.nestedFiles ()).requests := by
    rw [Rehearsal.requests_withOwnDirectory]
    exact List.mem_singleton.2 rfl
  exact ⟨_, hq, rfl, rfl, _, he, hs, hi⟩

end Retrial
