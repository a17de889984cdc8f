import Retrial.Attempt
import Retrial.Proofs.Classification
import Retrial.Proofs.Files.Following
import Retrial.Proofs.Log.Outcome

/-!
# Logs that end too soon

A process that dies while it writes its log leaves an initial part of it. Where
the log has one element at the top, such a part holds no complete function that
would count: it is no log at all, or a log in which nothing ran. So it is taken
for a crash, however the process ended.
-/

set_option autoImplicit false

namespace Retrial.Xml

def Lexeme.isTag : Lexeme → Bool
  | .opening _ | .empty _ | .closing _ => true
  | _ => false

inductive Balanced : List Lexeme → Prop
  | nil : Balanced []
  | other {l : Lexeme} {ls : List Lexeme} : l.isTag = false → Balanced ls → Balanced (l :: ls)
  | empty {content : List Char} {ls : List Lexeme} : Balanced ls → Balanced (.empty content :: ls)
  | element {content name : List Char} {inner ls : List Lexeme} :
      Balanced inner → Balanced ls → Balanced (.opening content :: (inner ++ .closing name :: ls))

inductive IsElement : List Lexeme → Prop
  | empty (content : List Char) : IsElement [.empty content]
  | pair {content name : List Char} {inner : List Lexeme} :
      Balanced inner → IsElement (.opening content :: (inner ++ [.closing name]))

/-- A text with exactly one element at the top, behind whose last tag `tail` stands. -/
inductive OneElement (text tail : List Char) : Prop
  | intro {before root after : List Lexeme} {stop : List Char} :
      Lexes text (before ++ root) tail → IsElement root → Lexes tail after stop →
      next? stop = .ok none → (∀ l ∈ before ++ after, l.isTag = false) → OneElement text tail

end Retrial.Xml

namespace Retrial

namespace Log

open Retrial.Xml

theorem nest_other {l : Lexeme} (h : l.isTag = false) (ns : List (List Char)) : nest ns l = ns := by
  cases l <;> first | rfl | cases h

theorem foldl_nest_others {ls : List Lexeme} (h : ∀ l ∈ ls, l.isTag = false)
    (ns : List (List Char)) : ls.foldl nest ns = ns := by
  induction ls with
  | nil => rfl
  | cons l ls ih =>
    rw [List.foldl_cons, nest_other (h l List.mem_cons_self)]
    exact ih fun m hm => h m (List.mem_cons_of_mem l hm)

theorem foldl_nest_balanced {ls : List Lexeme} (h : Balanced ls) (ns : List (List Char)) :
    ls.foldl nest ns = ns := by
  induction h generalizing ns with
  | nil => rfl
  | other hl _ ih => rw [List.foldl_cons, nest_other hl, ih]
  | empty _ ih => exact ih ns
  | element _ _ ihi ih => rw [List.foldl_cons, List.foldl_append, ihi]; exact ih ns

theorem foldl_nest_balanced_part {ls u : List Lexeme} (h : Balanced ls) (hu : u <+: ls)
    (ns : List (List Char)) : ∃ extra, u.foldl nest ns = extra ++ ns := by
  induction h generalizing u ns with
  | nil => exact ⟨[], by rw [List.prefix_nil.1 hu]; rfl⟩
  | @other l ls hl _ ih =>
    rcases List.prefix_cons_iff.1 hu with rfl | ⟨u, rfl, hu'⟩
    · exact ⟨[], rfl⟩
    · rw [List.foldl_cons, nest_other hl]
      exact ih hu' ns
  | @empty content ls _ ih =>
    rcases List.prefix_cons_iff.1 hu with rfl | ⟨u, rfl, hu'⟩
    · exact ⟨[], rfl⟩
    · exact ih hu' ns
  | @element content name inner ls hi _ ihi ih =>
    rcases List.prefix_cons_iff.1 hu with rfl | ⟨u, rfl, hu'⟩
    · exact ⟨[], rfl⟩
    rcases prefix_append_cases hu' with ⟨hin, -⟩ | ⟨v, rfl, hout⟩
    · obtain ⟨extra, he⟩ := ihi hin (openingName content :: ns)
      exact ⟨extra ++ [openingName content], by rw [List.foldl_cons, nest, he]; simp⟩
    · rw [List.foldl_cons, List.foldl_append, foldl_nest_balanced hi]
      rcases List.prefix_cons_iff.1 hout with rfl | ⟨v, rfl, hv⟩
      · exact ⟨[openingName content], rfl⟩
      · exact ih hv ns

theorem foldl_nest_element_part {root u v : List Lexeme} (h : IsElement root)
    (hr : root = u ++ v) (hu : u ≠ []) (hv : v ≠ []) : u.foldl nest [] ≠ [] := by
  cases h with
  | empty content =>
    rcases List.singleton_eq_append_iff.1 hr with ⟨rfl, -⟩ | ⟨-, rfl⟩
    · exact absurd rfl hu
    · exact absurd rfl hv
  | @pair content name inner hi =>
    obtain ⟨l, u, rfl⟩ := List.exists_cons_of_ne_nil hu
    obtain ⟨rfl, hin⟩ := List.cons.inj hr
    -- The last tag is part of what follows, since something does.
    have hi' : u <+: inner := by
      obtain ⟨v, l, rfl⟩ := List.eq_nil_or_concat v |>.resolve_left hv
      have he : inner ++ [.closing name] = u ++ v ++ [l] := by simpa using hin
      exact ⟨v, (List.append_inj' he rfl).1.symm⟩
    obtain ⟨extra, he⟩ := foldl_nest_balanced_part hi hi' [openingName content]
    rw [List.foldl_cons, nest, he]
    simp

theorem Draft.step_other_log {d d' : Draft} {l : Lexeme} (hl : l.isTag = false)
    (h : d.step l = .ok d') : d'.log = d.log := by
  cases takes_of_step h with
  | opening | empty | closing => cases hl
  | text | cdata => exact addText_log ..
  | aside => rfl

theorem Draft.run_others_log {d d' : Draft} {ls : List Lexeme} (hl : ∀ l ∈ ls, l.isTag = false)
    (h : d.run ls = some d') : d'.log = d.log := by
  induction ls generalizing d with
  | nil => cases h; rfl
  | cons l ls ih =>
    obtain ⟨e, he, hr⟩ := step_of_run h
    have hs : e.log = d.log := step_other_log (hl l List.mem_cons_self) he
    rw [← hs]
    exact ih (fun m hm => hl m (List.mem_cons_of_mem l hm)) hr

theorem Draft.close_eq_some {d : Draft} {log : TestLog} (h : d.close.toOption = some log) :
    d.openNames = [] ∧ log = d.log := by
  unfold close at h
  split at h
  · next hn => cases h; exact ⟨hn, rfl⟩
  · cases h

/-- Where a text breaks off, nothing is lost only if no element is open. -/
theorem outcome_broken {d : Draft} {q : List Char} {log : TestLog} (hq : Broken q)
    (h : outcome d q = some log) : d.openNames = [] ∧ log = d.log := by
  cases hq with
  | blank hn =>
    rw [outcome_end hn] at h
    exact Draft.close_eq_some h
  | data hn =>
    rw [outcome_next hn] at h
    obtain ⟨e, he, hr⟩ := Option.bind_eq_some_iff.1 h
    have hs := toOption_eq_some.1 he
    rw [outcome_nil] at hr
    obtain ⟨ho, rfl⟩ := Draft.close_eq_some hr
    rw [Draft.step_openNames hs] at ho
    exact ⟨ho, Draft.step_other_log rfl hs⟩
  | markup hn =>
    rw [outcome_error hn] at h
    cases h

theorem outcome_part {text tail p : List Char} {log : TestLog} (ht : OneElement text tail)
    (hp : p <+: text) (hlen : p.length + tail.length < text.length)
    (ho : outcome .start p = some log) : log.functions = [] := by
  cases ht with
  | @intro before root after stop front hroot back hstop hothers =>
  have hbefore : ∀ l ∈ before, l.isTag = false := fun l hl =>
    hothers l (List.mem_append_left after hl)
  obtain ⟨ls₁, ls₂, q, hls, hne, hlex, hq⟩ := front.cut hp hlen
  obtain ⟨d, hd, hod⟩ := Draft.run_of_outcome hlex ho
  obtain ⟨hopen, rfl⟩ := outcome_broken hq hod
  rw [Draft.run_openNames hd] at hopen
  rcases prefix_append_cases (hls ▸ List.prefix_append ls₁ ls₂) with ⟨hu, -⟩ | ⟨u, rfl, -⟩
  · rw [Draft.run_others_log (fun l hl => hbefore l (hu.mem hl)) hd]
    rfl
  · rw [List.append_assoc, List.append_cancel_left_eq] at hls
    rw [List.foldl_append, foldl_nest_others hbefore] at hopen
    by_cases hu : u = []
    · rw [hu, List.append_nil] at hd
      rw [Draft.run_others_log hbefore hd]
      rfl
    · exact absurd hopen (foldl_nest_element_part hroot hls hu hne)

/-- An initial part of a log that stops before the end of its only element is no
log, or one in which nothing ran. -/
theorem read_part {text tail p : List Char} {log : TestLog}
    (ht : OneElement (withoutMark text) tail) (hp : p <+: text)
    (hlen : p.length + tail.length < text.length) (hr : read p = .ok log) :
    log.functions = [] := by
  by_cases hne : p = []
  · subst hne
    have he : read [] = .ok .empty := rfl
    cases he.symm.trans hr
    rfl
  · have ho : outcome .start (withoutMark p) = some log := by
      rw [← outcome_read, hr]
      rfl
    obtain ⟨v, rfl⟩ := hp
    rw [withoutMark_append hne] at ht
    refine outcome_part ht (List.prefix_append _ v) ?_ ho
    simp only [List.length_append] at hlen ⊢
    omega

theorem readFrom_ne_unreadable {n : Nat} {d : Draft} {cs : List Char} {fault : IoFault} :
    readFrom n d cs ≠ .error (.unreadable fault) := by
  fun_induction readFrom n d cs with
  | case1 d cs xml h => simp
  | case2 d cs h => unfold Draft.close; split <;> simp
  | case3 d cs l rest h _ offence hs => cases offence <;> simp [Offence.cause]
  | case4 d cs l rest h _ d' hs ih => exact ih

theorem read_ne_unreadable {cs : List Char} {fault : IoFault} :
    read cs ≠ .error (.unreadable fault) := by
  unfold read
  split
  · simp
  · exact readFrom_ne_unreadable

end Log

theorem LogState.load_text {files : Files} {path : String} {bytes : Text.Bytes} {text : List Char}
    (hf : files.read path = .ok bytes) (hd : Text.decode bytes = .ok text) :
    (∃ cause, Log.read text = .error cause ∧
        LogState.load files path = .unreadable ⟨some path, cause⟩) ∨
      ∃ log, Log.read text = .ok log ∧ LogState.load files path = .parsed log := by
  have hl : Log.load files path = (Log.read text).mapError (⟨some path, ·⟩) :=
    Log.load_eq_read hf hd
  cases hr : Log.read text with
  | ok log =>
    refine .inr ⟨log, rfl, ?_⟩
    rw [load, hl, hr]
    rfl
  | error cause =>
    refine .inl ⟨cause, rfl, ?_⟩
    have hc : (cause == .unreadable .noSuchEntry) = false := by
      rw [beq_eq_false_iff_ne]
      rintro rfl
      exact Log.read_ne_unreadable hr
    rw [load, hl, hr]
    simp only [Except.mapError, hc]
    rfl

theorem classify_empty (noRerun : List String) (exit : Exit) {log : TestLog}
    (h : log.functions = []) : ∃ reason, classify noRerun exit (.parsed log) = .crashed reason := by
  cases exit with
  | exited code =>
    have he : log.isEmpty = true := by rw [TestLog.isEmpty, h]; rfl
    exact ⟨.emptyLog, by rw [classify, classifyLog, if_pos he]⟩
  | _ => exact ⟨_, rfl⟩

/-- A log that was cut off before the end of its only element is never trusted:
it is no log, or one without functions, and the attempt that left it crashed. -/
theorem truncated_log_is_crash {text tail part : List Char}
    (ht : Xml.OneElement (Log.withoutMark text) tail) (hp : part <+: text)
    (hlen : part.length + tail.length < text.length) :
    ((∃ cause, Log.read part = .error cause) ∨
        ∃ log, Log.read part = .ok log ∧ log.functions = []) ∧
      ∀ (files : Files) (path : String) (bytes : Text.Bytes),
        files.read path = .ok bytes → Text.decode bytes = .ok part →
        ((∃ fault, LogState.load files path = .unreadable fault) ∨
            ∃ log, LogState.load files path = .parsed log) ∧
          ∀ (noRerun : List String) (exit : Exit),
            ∃ reason, classify noRerun exit (LogState.load files path) = .crashed reason := by
  constructor
  · cases hr : Log.read part with
    | error cause => exact .inl ⟨cause, rfl⟩
    | ok log => exact .inr ⟨log, rfl, Log.read_part ht hp hlen hr⟩
  · intro files path bytes hf hd
    rcases LogState.load_text hf hd with ⟨cause, -, hl⟩ | ⟨log, hr, hl⟩
    · rw [hl]
      exact ⟨.inl ⟨_, rfl⟩, fun noRerun exit => classify_unreadable noRerun exit _⟩
    · rw [hl]
      exact ⟨.inr ⟨_, rfl⟩, fun noRerun exit =>
        classify_empty noRerun exit (Log.read_part ht hp hlen hr)⟩

/-- What a process leaves that dies when its first function is complete. -/
def cutLog : List Char :=
  "<TestCase name=\"t\"><TestFunction name=\"a\"><Incident type=\"pass\"/></TestFunction>".toList

def cutFiles : Files := Files.empty.put ["work", "t.xml"] (.file (Text.encode cutLog) 0o644)

theorem oneElement_whole :
    Xml.OneElement (Log.withoutMark (cutLog ++ "</TestCase>\n".toList)) ['\n'] := by
  have hinner : Xml.Balanced [.opening "TestFunction name=\"a\"".toList,
      .empty "Incident type=\"pass\"".toList, .closing "TestFunction".toList] :=
    .element (.empty .nil) .nil
  have hlex : Xml.Lexes (Log.withoutMark (cutLog ++ "</TestCase>\n".toList)) ([] ++
      [.opening "TestCase name=\"t\"".toList, .opening "TestFunction name=\"a\"".toList,
        .empty "Incident type=\"pass\"".toList, .closing "TestFunction".toList,
        .closing "TestCase".toList]) ['\n'] :=
    .of_lexemes? (n := 5) (by
      unfold cutLog
      rw [Text.toList_literal rfl, Text.toList_literal rfl]
      decide +kernel)
  exact .intro hlex (.pair hinner) (.done _) rfl (by simp)

theorem truncated_log_is_crash_behind_function :
    Log.read (cutLog ++ "</TestCase>\n".toList) =
        .ok ⟨some "t", [⟨"a", [⟨.pass, none, none, none, none⟩], [], none⟩]⟩ ∧
      ∃ reason, classify [] (.exited 0) (LogState.load cutFiles "t.xml") = .crashed reason := by
  have hl : cutFiles.locate "t.xml" = .ok ["work", "t.xml"] := Files.follow_of_descends rfl
  have hf : cutFiles.read "t.xml" = .ok (Text.encode cutLog) := by
    rw [Files.read, hl]
    rfl
  have hd : Text.decode (Text.encode cutLog) = .ok cutLog :=
    Text.decode_encode (by
      unfold cutLog
      rw [Text.toList_literal rfl]
      decide +kernel)
  have hlen : cutLog.length + ['\n'].length < (cutLog ++ "</TestCase>\n".toList).length := by
    rw [List.length_append]
    exact Nat.add_lt_add_left (by decide) _
  have hp : cutLog <+: cutLog ++ "</TestCase>\n".toList := ⟨_, rfl⟩
  obtain ⟨-, h⟩ := truncated_log_is_crash oneElement_whole hp hlen
  have hr : Log.read (cutLog ++ "</TestCase>\n".toList) =
      .ok ⟨some "t", [⟨"a", [⟨.pass, none, none, none, none⟩], [], none⟩]⟩ :=
    Xml.toOption_eq_some.1 (by
      unfold cutLog
      rw [Text.toList_literal rfl, Text.toList_literal rfl]
      decide +kernel)
  exact ⟨hr, (h _ _ _ hf hd).2 _ _⟩

end Retrial
