import Retrial.Proofs.Calls
import Retrial.Proofs.Classification
import Retrial.Proofs.Files.Effects
import Retrial.Proofs.LogNames
import Retrial.Proofs.Verdict

/-!
# Fresh logs

No attempt reads the log of another one. Under unique names an attempt finds no
file where its log is to be, since one that lay there was removed and a run stops
where that cannot be done. So what is read there afterwards was written by the
attempt, and an attempt that wrote nothing has crashed. Supervision removes
nothing else, and nothing at all under a fixed name.
-/

set_option autoImplicit false

namespace Retrial

/-- Room for a log: no file is found at its path, and nothing has changed but what
stood at the path itself. -/
structure RoomFor (path : String) (before found : Files) : Prop where
  absent : found.fileExists path = false
  unread : ∃ fault, found.read path = .error fault
  kept : ∀ place, before.locateLink path ≠ .ok place → found.entryAt? place = before.entryAt? place
  workingDirectory : found.workingDirectory = before.workingDirectory
  untouched : before.fileExists path = false → found = before

variable {Memory : Type} {s : Setup} {x : Executor Memory} {listen : Listener} {t : Tally}
  {files before found : Files} {memory : Memory} {n : Nat} {kind : AttemptKind}
  {path stamp : String}

theorem roomFor_of_absent (h : files.fileExists path = false) : RoomFor path files files where
  absent := h
  unread := Files.read_of_find?_eq_none (by simpa [Files.fileExists] using h)
  kept _ _ := rfl
  workingDirectory := rfl
  untouched _ := rfl

theorem roomFor_of_remove (he : before.fileExists path = true)
    (h : before.remove path = .ok found) : RoomFor path before found := by
  obtain ⟨hf, hw, hk⟩ := Files.remove_effect h
  constructor
  case absent => simp [Files.fileExists, hf]
  case unread => exact Files.read_of_find?_eq_none hf
  case kept => exact hk
  case workingDirectory => exact hw
  case untouched =>
    intro hn
    rw [he] at hn
    cases hn

theorem Setup.prepare_unique (hn : s.naming = .unique stamp)
    (hp : (s.request n kind).logPath = some path) (files : Files) :
    s.prepare n files = if files.fileExists path then
      (files.remove path).mapError (.removeStaleLog path) else .ok files := by
  obtain ⟨namer, hm, rfl⟩ := Option.map_eq_some_iff.1 hp
  obtain ⟨name, -, rfl⟩ := Option.map_eq_some_iff.1 hm
  simp only [Setup.prepare, hm, LogNamer.prepare, hn]
  split <;> rfl

theorem Setup.prepare_fixed (hn : s.naming = .fixed) (n : Nat) (files : Files) :
    s.prepare n files = .ok files := by
  unfold Setup.prepare Setup.namer?
  cases s.invocation.logBaseName with
  | none => rfl
  | some name =>
    rw [hn]
    rfl

theorem Setup.prepare_of_no_log (hp : (s.request n kind).logPath = none) (files : Files) :
    s.prepare n files = .ok files := by
  have hm : s.namer? = none := by simpa [Setup.request] using hp
  rw [Setup.prepare, hm]

theorem roomFor_of_prepare (hn : s.naming = .unique stamp)
    (hp : (s.request n kind).logPath = some path) (h : s.prepare n before = .ok found) :
    RoomFor path before found := by
  rw [Setup.prepare_unique hn hp] at h
  by_cases he : before.fileExists path = true
  · rw [if_pos he] at h
    cases hr : before.remove path with
    | error fault =>
      rw [hr] at h
      cases h
    | ok later =>
      rw [hr] at h
      cases h
      exact roomFor_of_remove he hr
  · rw [if_neg he] at h
    cases h
    exact roomFor_of_absent (by simpa using he)

/-- A run ends where a stale log cannot be removed, and the attempt is not made. -/
theorem proceed_stale {l : Ledger} {step : Step} {fault : IoFault} (hn : s.naming = .unique stamp)
    (hp : (s.request (t.attempts + 1) step.kind).logPath = some path)
    (he : files.fileExists path = true) (hr : files.remove path = .error fault) :
    proceed s x listen t l (.attempt step) files memory =
      .failed (.removeStaleLog path fault) files := by
  apply proceed_stopped
  rw [attemptOnce_eq_iff]
  apply Attempted.unprepared
  rw [Setup.prepare_unique hn hp, if_pos he, hr]
  rfl

theorem stale_of_prepare {path' : String} {fault : IoFault} (hn : s.naming = .unique stamp)
    (h : s.prepare n files = .error (.removeStaleLog path' fault)) (kind : AttemptKind) :
    (s.request n kind).logPath = some path' ∧ files.fileExists path' = true ∧
      files.remove path' = .error fault := by
  cases hp : (s.request n kind).logPath with
  | none =>
    rw [Setup.prepare_of_no_log hp] at h
    cases h
  | some path =>
    rw [Setup.prepare_unique hn hp] at h
    by_cases he : files.fileExists path = true
    · rw [if_pos he] at h
      cases hr : files.remove path with
      | ok later =>
        rw [hr] at h
        cases h
      | error refusal =>
        rw [hr] at h
        cases h
        exact ⟨rfl, he, hr⟩
    · rw [if_neg he] at h
      cases h

/-- A log that cannot be read is a crash, however the process ended. -/
theorem classify_unread {noRerun : List String} {exit : Exit}
    (h : ∃ fault, files.read path = .error fault) :
    ∃ reason, classify noRerun exit (LogState.load files path) = .crashed reason := by
  obtain ⟨fault, hf⟩ := h
  unfold LogState.load Log.load
  rw [hf]
  dsimp only
  split
  · exact classify_missing noRerun exit
  · exact classify_unreadable noRerun exit _

theorem read_of_parsed {log : TestLog} (h : LogState.load files path = .parsed log) :
    ∃ bytes, files.read path = .ok bytes := by
  cases hr : files.read path with
  | ok bytes => exact ⟨bytes, rfl⟩
  | error fault =>
    simp only [LogState.load, Log.load, hr] at h
    split at h <;> cases h

/-- A call with a log of its own. What an executor that loads its logs reads there
was written by the attempt; if nothing was, the attempt has crashed. -/
structure Fresh (s : Setup) (x : Executor Memory) (call : Call) (path : String) : Prop where
  room : RoomFor path call.before call.found
  written : x.LoadsLogs → ∀ o log, call.answer = .ok o → o.log = .parsed log →
    call.left.read path ≠ call.found.read path
  unwritten : x.LoadsLogs → ∀ o, call.answer = .ok o →
    call.left.read path = call.found.read path → ∃ reason, s.classify o.exit o.log = .crashed reason

structure KeptApart (s : Setup) (x : Executor Memory) (r : Run) (calls : List Call) (last : Files) :
    Prop where
  distinct : calls.Pairwise fun a b =>
    ∀ path, a.request.logPath = some path → b.request.logPath ≠ some path
  fresh : ∀ call ∈ calls, ∀ path, call.request.logPath = some path → Fresh s x call path
  files : r.files = last ∨ ∃ kind path,
    (s.request (calls.length + 1) kind).logPath = some path ∧ RoomFor path last r.files
  stale : ∀ path fault, r.ending = .fault (.removeStaleLog path fault) →
    (∃ kind, (s.request (calls.length + 1) kind).logPath = some path) ∧
      last.fileExists path = true ∧ last.remove path = .error fault

structure Untouched (r : Run) (calls : List Call) (last : Files) : Prop where
  calls : ∀ call ∈ calls, call.found = call.before
  files : r.files = last
  ending : ∀ path fault, r.ending ≠ .fault (.removeStaleLog path fault)

section Told

variable {r : Run} {calls : List Call} {last : Files}

theorem Setup.attempt_of_logPath {n' : Nat} {kind' : AttemptKind} (hn : s.naming = .unique stamp)
    (h : (s.request n kind).logPath = some path) (h' : (s.request n' kind').logPath = some path) :
    n = n' := by
  obtain ⟨namer, hm, hp⟩ := Option.map_eq_some_iff.1 h
  obtain ⟨namer', hm', hp'⟩ := Option.map_eq_some_iff.1 h'
  cases hm.symm.trans hm'
  obtain ⟨name, -, rfl⟩ := Option.map_eq_some_iff.1 hm
  exact LogNamer.path_ne hn (hp.trans hp'.symm)

theorem Calls.logPath_ne (hn : s.naming = .unique stamp) (h : Calls s x n files memory calls last) :
    calls.Pairwise fun a b =>
      ∀ path, a.request.logPath = some path → b.request.logPath ≠ some path := by
  have hd : (calls.map (·.request.attempt)).Nodup := by
    rw [h.attempts]
    exact List.nodup_range'
  rw [List.nodup_iff_pairwise_ne, List.pairwise_map] at hd
  apply hd.imp_of_mem
  intro a b ha hb hab path hpa hpb
  obtain ⟨m, kind, hqa, -⟩ := h.mem ha
  obtain ⟨m', kind', hqb, -⟩ := h.mem hb
  rw [hqa] at hab hpa
  rw [hqb] at hab hpb
  exact hab (Setup.attempt_of_logPath hn hpa hpb)

theorem Calls.fresh {call : Call} (hn : s.naming = .unique stamp)
    (h : Calls s x n files memory calls last) (hc : call ∈ calls)
    (hp : call.request.logPath = some path) : Fresh s x call path := by
  obtain ⟨m, kind, hq, hr, before, after, hx⟩ := h.mem hc
  have room : RoomFor path call.before call.found := roomFor_of_prepare hn (hq ▸ hp) hr
  have hlog : x.LoadsLogs → ∀ o, call.answer = .ok o → o.log = LogState.load call.left path := by
    intro hl o ho
    rw [hl _ _ _ _ _ _ (ho ▸ hx), hp]
    rfl
  constructor
  case room => exact room
  case written =>
    intro hl o log ho hlo he
    rw [hlog hl o ho] at hlo
    obtain ⟨bytes, hb⟩ := read_of_parsed hlo
    obtain ⟨fault, hf⟩ := room.unread
    rw [hb, hf] at he
    cases he
  case unwritten =>
    intro hl o ho he
    rw [Setup.classify, hlog hl o ho]
    exact classify_unread (he ▸ room.unread)

theorem Told.keptApart (hn : s.naming = .unique stamp) (h : Told s x 0 files memory r calls last) :
    KeptApart s x r calls last := by
  constructor
  case distinct => exact h.made.logPath_ne hn
  case fresh => exact fun call hc path hp => h.made.fresh hn hc hp
  case files =>
    cases h.files with
    | inl hf => exact Or.inl hf
    | inr hf =>
      rw [Nat.zero_add] at hf
      cases hp : (s.request (calls.length + 1) .fullRun).logPath with
      | none =>
        rw [Setup.prepare_of_no_log hp] at hf
        exact Or.inl (Except.ok.inj hf).symm
      | some path => exact Or.inr ⟨_, path, hp, roomFor_of_prepare hn hp hf⟩
  case stale =>
    intro path fault he
    have hs := stale_of_prepare hn (h.stale path fault he) .fullRun
    rw [Nat.zero_add] at hs
    exact ⟨⟨_, hs.1⟩, hs.2⟩

theorem Told.untouched (hn : s.naming = .fixed) (h : Told s x n files memory r calls last) :
    Untouched r calls last := by
  constructor
  case calls =>
    intro call hc
    obtain ⟨m, kind, -, hr, -⟩ := h.made.mem hc
    rw [Setup.prepare_fixed hn] at hr
    exact (Except.ok.inj hr).symm
  case files =>
    cases h.files with
    | inl hf => exact hf
    | inr hf =>
      rw [Setup.prepare_fixed hn] at hf
      exact (Except.ok.inj hf).symm
  case ending =>
    intro path fault he
    have hs := h.stale path fault he
    rw [Setup.prepare_fixed hn] at hs
    cases hs

end Told

theorem Setup.makeLogDirectory_keeps {start : Files} (h : s.makeLogDirectory files = .ok start) :
    files.KeptIn start := by
  unfold Setup.makeLogDirectory at h
  split at h
  · cases hc : files.createDirectories s.logDirectory with
    | error fault =>
      rw [hc] at h
      cases h
    | ok later =>
      rw [hc] at h
      cases h
      exact Files.keptIn_createDirectories hc
  · cases h
    exact .refl files

/-- No attempt reads the log of another one. Under unique names each attempt finds
no file where its log is to be, and a run ends where that cannot be had; nothing
else is removed, and under a fixed name nothing at all. The paths of logs tell
the artifact, the stamp and the attempt. -/
theorem attempts_read_their_own_logs (s : Setup) (x : Executor Memory) (listen : Listener)
    (files : Files) (memory : Memory) :
    (∃ start calls last, (start = files ∨ s.makeLogDirectory files = .ok start) ∧
      files.KeptIn start ∧ Told s x 0 start memory (supervise s x listen files memory) calls last ∧
      (∀ stamp, s.naming = .unique stamp →
        KeptApart s x (supervise s x listen files memory) calls last) ∧
      (s.naming = .fixed → Untouched (supervise s x listen files memory) calls last)) ∧
    (∀ t l step left memory path stamp fault, s.naming = .unique stamp →
      (s.request (t.attempts + 1) step.kind).logPath = some path → left.fileExists path = true →
      left.remove path = .error fault →
      proceed s x listen t l (.attempt step) left memory =
        .failed (.removeStaleLog path fault) left) ∧
    ∀ (a b : LogNamer) (m m' : Moment) (n k : Nat), a.directory = b.directory →
      a.naming = .unique m.stamp → b.naming = .unique m'.stamp → 0 ≤ m.year → 0 ≤ m'.year →
      '/' ∉ a.baseName.toList → '/' ∉ b.baseName.toList → a.path n = b.path k →
      a.baseName = b.baseName ∧ m.stamp = m'.stamp ∧ n = k := by
  apply And.intro
  · obtain ⟨start, calls, last, hs, ht⟩ := @told_supervise Memory s x listen files memory
    have hk : files.KeptIn start := by
      cases hs with
      | inl hs => exact hs ▸ .refl files
      | inr hs => exact Setup.makeLogDirectory_keeps hs
    exact ⟨start, calls, last, hs, hk, ht, fun _ hn => ht.keptApart hn, ht.untouched⟩
  · apply And.intro
    · intro t l step left memory path stamp fault hn hp he hr
      exact proceed_stale hn hp he hr
    · intro a b m m' n k hd ha hb hm hm' hna hnb h
      exact LogNamer.path_injective hd ha hb hm hm' hna hnb h

namespace Rehearsal

def broken : Executor Unit where
  run q files memory := (.error (.emptyCommand q.attempt), files, memory)
  elapsed _ := ⟨0⟩

theorem requests_broken {s : Setup} {files start found : Files} (hv : s.policy.fault? = none)
    (he : s.existingLog = none) (hm : s.makeLogDirectory files = .ok start)
    (hp : s.prepare 1 start = .ok found) :
    (supervise s broken .willing files ()).requests = [s.request 1 .fullRun] := by
  have ha : attemptOnce s broken .willing ⟨0, 0, 1⟩ Step.fullRun.kind start () = .stopped _ :=
    attemptOnce_eq_iff.2 (.unrun ⟨hp, rfl⟩ rfl)
  have hb : (begin s broken .willing start ()).requests = [s.request 1 .fullRun] := by
    unfold begin
    rw [he]
    exact congrArg Run.requests (proceed_stopped ha)
  unfold supervise
  rw [hv]
  dsimp only
  rw [hm]
  exact hb

def withOwnNames : Setup := { setup .standard with logDir := "", naming := .unique "s" }

def obstructed (entry : Entry) : Files := Files.empty.put ["work", "t-s-1.xml"] entry

def staleLog : Entry := .file [] Entry.usualMode

def noon : Moment := ⟨2024, 2, 29, 12, 0, 0⟩

def namer (baseName : String) : LogNamer := ⟨"", baseName, .unique noon.stamp⟩

theorem makeLogDirectory_withOwnNames (files : Files) :
    withOwnNames.makeLogDirectory files = .ok files := by
  have hp : withOwnNames.logDirectory = "" := rfl
  have hw : withOwnNames.invocation.wantsLog = true := rfl
  have hc : files.createDirectories "" = .ok files := by
    unfold Files.createDirectories Files.createDirectoriesUpTo
    rfl
  rw [Setup.makeLogDirectory, if_pos hw, hp, hc]
  rfl

theorem logPath_withOwnNames (kind : AttemptKind) :
    (withOwnNames.request 1 kind).logPath = some "t-s-1.xml" := rfl

theorem fileExists_obstructed {entry : Entry} (h : entry.isLink = false) :
    (obstructed entry).fileExists "t-s-1.xml" = true := by
  have hd : (obstructed entry).descends ["work"] ["t-s-1.xml"] = true := by
    cases entry with
    | link => cases h
    | _ => rfl
  have hl : (obstructed entry).locate "t-s-1.xml" = .ok ["work", "t-s-1.xml"] :=
    Files.follow_of_descends hd
  rw [Files.fileExists, Files.find?, hl]
  rfl

theorem remove_staleLog : (obstructed staleLog).remove "t-s-1.xml" =
    .ok ((obstructed staleLog).erase ["work", "t-s-1.xml"]) := by
  have hl : (obstructed staleLog).locateLink "t-s-1.xml" = .ok ["work", "t-s-1.xml"] :=
    Files.follow_of_descends rfl
  rw [Files.remove, hl]
  rfl

theorem remove_directory : (obstructed .directory).remove "t-s-1.xml" = .error .isADirectory := by
  have hl : (obstructed .directory).locateLink "t-s-1.xml" = .ok ["work", "t-s-1.xml"] :=
    Files.follow_of_descends rfl
  rw [Files.remove, hl]
  rfl

theorem requests_withOwnNames :
    (supervise withOwnNames broken .willing (obstructed staleLog) ()).requests =
      [withOwnNames.request 1 .fullRun] := by
  apply requests_broken rfl rfl (makeLogDirectory_withOwnNames _)
  rw [Setup.prepare_unique rfl (logPath_withOwnNames .fullRun),
    if_pos (fileExists_obstructed rfl), remove_staleLog]
  rfl

end Rehearsal

/-- A stale log is gone when the attempt is made, and a directory in its place ends the run. -/
theorem attempts_read_their_own_logs_where_obstructed :
    (∃ calls last, Told Rehearsal.withOwnNames Rehearsal.broken 0
        (Rehearsal.obstructed Rehearsal.staleLog) () (supervise Rehearsal.withOwnNames
          Rehearsal.broken .willing (Rehearsal.obstructed Rehearsal.staleLog) ()) calls last ∧
      ∃ call ∈ calls, call.before.fileExists "t-s-1.xml" = true ∧
        call.found.fileExists "t-s-1.xml" = false) ∧
    proceed Rehearsal.withOwnNames Rehearsal.broken .willing ⟨0, 0, 1⟩ (.start .standard)
        (.attempt .fullRun) (Rehearsal.obstructed .directory) () =
      .failed (.removeStaleLog "t-s-1.xml" .isADirectory) (Rehearsal.obstructed .directory) ∧
    (Rehearsal.namer "t").path 1 ≠ (Rehearsal.namer "t-1").path 1 := by
  obtain ⟨⟨start, calls, last, hs, -, ht, hk, -⟩, hr, hn⟩ :=
    attempts_read_their_own_logs Rehearsal.withOwnNames Rehearsal.broken .willing
      (Rehearsal.obstructed Rehearsal.staleLog) ()
  have he : start = Rehearsal.obstructed Rehearsal.staleLog := by
    rw [Rehearsal.makeLogDirectory_withOwnNames] at hs
    exact hs.elim id fun h => (Except.ok.inj h).symm
  subst he
  have hq := ht.requests.trans Rehearsal.requests_withOwnNames
  constructor
  case left =>
    cases ht.made with
    | nil => cases hq
    | cons hp hx hc =>
      have hf := (hk "s" rfl).fresh _ List.mem_cons_self "t-s-1.xml" rfl
      exact ⟨_, _, ht, _, List.mem_cons_self, Rehearsal.fileExists_obstructed rfl,
        hf.room.absent⟩
  case right =>
    apply And.intro
    · exact hr _ _ _ _ _ _ _ _ rfl rfl (Rehearsal.fileExists_obstructed rfl)
        Rehearsal.remove_directory
    · intro h
      have hy : 0 ≤ Rehearsal.noon.year := by decide
      have hb := hn (Rehearsal.namer "t") (Rehearsal.namer "t-1") Rehearsal.noon Rehearsal.noon 1 1
        rfl rfl rfl hy hy (by simp [Rehearsal.namer]) (by simp [Rehearsal.namer]) h
      exact absurd hb.1 (by decide)

end Retrial
