import Retrial.Proofs.Calls
import Retrial.Proofs.Grammar
import Retrial.Proofs.Transcript.Lines

/-!
# The segments of a transcript

A run reports an attempt without a break: its start, its end, and what was
decided after that. So its transcript is an opening, a stretch for each attempt
that was answered, and at most the header of one that a fault cut off. In a
stretch the answer's output stands byte for byte between the header and the exit
line of the same attempt.
-/

set_option autoImplicit false

namespace Retrial

open Text Transcript History

def Event.isOfAttempt : Event → Bool
  | .attemptStarted _ => true
  | .attemptFinished _ _ _ => true
  | _ => false

def Finish.events (w : Finish) : List Event :=
  [.attemptStarted w.request, .attemptFinished w.request w.outcome w.classification]

/-- An attempt to its end, and what was reported before the next one. -/
structure Stretch where
  finish : Finish
  notes : List Event

def Stretch.events (t : Stretch) : List Event := t.finish.events ++ t.notes

structure Stretched (es opening : List Event) (stretches : List Stretch) : Prop where
  events : es = opening ++ stretches.flatMap Stretch.events
  opening : ∀ e ∈ opening, e.isOfAttempt = false
  notes : ∀ t ∈ stretches, ∀ e ∈ t.notes, e.isOfAttempt = false

namespace Stretched

variable {es opening : List Event} {stretches : List Stretch}

theorem attempt (h : Stretched es opening stretches) (w : Finish) :
    Stretched (es ++ w.events) opening (stretches ++ [⟨w, []⟩]) where
  events := by simp [h.events, Stretch.events]
  opening := h.opening
  notes := by
    intro t ht
    cases List.mem_append.1 ht with
    | inl ht => exact h.notes t ht
    | inr ht => simp [List.mem_singleton.1 ht]

theorem note (h : Stretched es opening stretches) {e : Event} (he : e.isOfAttempt = false) :
    ∃ opening stretches, Stretched (es ++ [e]) opening stretches := by
  obtain rfl | ⟨before, t, rfl⟩ := List.eq_nil_or_concat stretches
  · refine ⟨opening ++ [e], [], by simp [h.events], ?_, by simp⟩
    exact List.forall_mem_append.2 ⟨h.opening, List.forall_mem_singleton.2 he⟩
  · refine ⟨opening, before ++ [⟨t.finish, t.notes ++ [e]⟩], ?_, h.opening, ?_⟩
    · simp [h.events, Stretch.events]
    · have hn := h.notes
      simp only [List.concat_eq_append, List.forall_mem_append, List.forall_mem_singleton] at hn ⊢
      exact ⟨hn.1, hn.2, he⟩

theorem requests (h : Stretched es opening stretches) :
    requests es = stretches.map (·.finish.request) := by
  have hn : ∀ es : List Event, (∀ e ∈ es, e.isOfAttempt = false) → History.requests es = [] := by
    intro es he
    refine List.filterMap_eq_nil_iff.2 fun e hm => ?_
    have hn := he e hm
    cases e with
    | attemptStarted => cases hn
    | _ => rfl
  have hs : ∀ ts : List Stretch, (∀ t ∈ ts, ∀ e ∈ t.notes, e.isOfAttempt = false) →
      History.requests (ts.flatMap Stretch.events) = ts.map (·.finish.request) := by
    intro ts ht
    induction ts with
    | nil => rfl
    | cons t ts ih =>
      obtain ⟨ht, hts⟩ := List.forall_mem_cons.1 ht
      simp [Stretch.events, Finish.events, hn _ ht, ih hts]
  rw [h.events, requests_append, hn _ h.opening, hs _ h.notes, List.nil_append]

end Stretched

theorem Course.stretched {s : Setup} {es : List Event} {l : Ledger} {φ : Phase}
    (h : Course s es l φ) : ∃ opening stretches, Stretched es opening stretches := by
  induction h with
  | fresh => exact ⟨_, [], (List.append_nil _).symm, by simp [Event.isOfAttempt], by simp⟩
  | existing => exact ⟨_, [], (List.append_nil _).symm, by simp [Event.isOfAttempt], by simp⟩
  | attempted q o k _ _ _ ih =>
    obtain ⟨opening, stretches, h⟩ := ih
    exact ⟨opening, _, h.attempt ⟨q, o, k⟩⟩
  | recovered _ _ ih | scheduled _ _ ih | confirmed _ _ ih =>
    obtain ⟨opening, stretches, h⟩ := ih
    exact h.note rfl
  | passed _ ih | failed _ ih | executableFailed _ ih | crashed _ ih | counted _ _ ih
  | repeated _ _ _ ih | givenUp _ _ ih | granted _ _ ih | settled _ ih => exact ih

/-- Events in which the attempts are told in their order, and behind them at most
the start of the next one. -/
structure Laid (s : Setup) (es opening : List Event) (stretches : List Stretch) (cut : List Event) :
    Prop where
  events : es = opening ++ stretches.flatMap Stretch.events ++ cut
  opening : ∀ e ∈ opening, e.isOfAttempt = false
  notes : ∀ t ∈ stretches, ∀ e ∈ t.notes, e.isOfAttempt = false
  numbered : stretches.map (·.finish.request.attempt) = List.range' 1 stretches.length
  cut : cut = [] ∨ ∃ kind, cut = [.attemptStarted (s.request (stretches.length + 1) kind)]

section Laid

variable {s : Setup} {es opening cut : List Event} {stretches : List Stretch}

theorem Stretched.laid (h : Stretched es opening stretches)
    (hn : (History.requests es).map (·.attempt) = List.range' 1 (History.requests es).length)
    (hc : cut = [] ∨
      ∃ kind, cut = [.attemptStarted (s.request ((History.requests es).length + 1) kind)]) :
    Laid s (es ++ cut) opening stretches cut where
  events := by rw [h.events]
  opening := h.opening
  notes := h.notes
  numbered := by simpa [h.requests, Function.comp_def] using hn
  cut := by simpa [h.requests] using hc

theorem Stage.laid (h : Stage s es) : ∃ opening stretches cut, Laid s es opening stretches cut := by
  cases h with
  | silent => exact ⟨[], [], [], rfl, by simp, by simp, rfl, .inl rfl⟩
  | started =>
    exact ⟨[.started s.invocation s.policy], [], [], rfl, by simp [Event.isOfAttempt], by simp, rfl,
      .inl rfl⟩
  | between hc =>
    obtain ⟨opening, stretches, h⟩ := hc.stretched
    exact ⟨opening, stretches, [], by simpa using h.laid hc.numbered (.inl rfl)⟩
  | underWay hc =>
    obtain ⟨opening, stretches, h⟩ := hc.stretched
    exact ⟨opening, stretches, _, h.laid hc.numbered (.inr ⟨_, rfl⟩)⟩
  | @ended es l v attempts elapsed hc =>
    obtain ⟨opening, stretches, h⟩ := hc.stretched
    obtain ⟨opening, stretches, h⟩ :=
      h.note (e := .finished v l.confirmed l.recovered attempts elapsed) rfl
    have hn := hc.numbered
    exact ⟨opening, stretches, [], by simpa using h.laid (by simpa using hn) (.inl rfl)⟩

end Laid

def Transcript.text (verbose : Bool) (es : List Event) : Bytes :=
  es.flatMap (render ⟨false, verbose⟩)

/-- An attempt in the transcript: its header, the details that may be asked for,
its output as it was captured and a newline if that is open, how its process
ended, and what it showed. -/
def Finish.segment (verbose : Bool) (w : Finish) : Bytes :=
  w.request.header.bytes ++ (w.request.details verbose).flatMap Line.bytes ++
    w.outcome.output ++ closing w.outcome.output ++
    w.exitLine.bytes ++ w.classificationLine.bytes

section Text

variable {verbose : Bool} {es es' : List Event}

theorem text_append : text verbose (es ++ es') = text verbose es ++ text verbose es' :=
  List.flatMap_append

theorem text_eq_lines : text verbose es = (es.flatMap (lines verbose)).flatMap Line.bytes := by
  rw [text, List.flatMap_assoc]
  exact congrArg (List.flatMap · es) (funext (render_eq_lines verbose))

theorem text_finish (w : Finish) : text verbose w.events = w.segment verbose := by
  simp [text_eq_lines, Finish.events, lines, Finish.segment, Line.bytes]

theorem text_stretches (ts : List Stretch) : text verbose (ts.flatMap Stretch.events) =
    ts.flatMap fun t => t.finish.segment verbose ++ text verbose t.notes := by
  induction ts with
  | nil => rfl
  | cons t ts ih =>
    rw [List.flatMap_cons, text_append, Stretch.events, text_append, text_finish, ih,
      List.flatMap_cons]

end Text

theorem exists_ending_line (verbose : Bool) (e : Event) :
    ∃ l ∈ lines verbose e, l.bytes.getLast? = some 10 := by
  have hh : ∀ word text, (Line.headed word text).bytes.getLast? = some 10 :=
    fun _ _ => getLast?_encodeString_newline _
  cases e with
  | attemptStarted q =>
    refine ⟨q.header, List.mem_cons_self, ?_⟩
    unfold Request.header
    split <;> exact hh _ _
  | attemptFinished q o k =>
    exact ⟨Finish.exitLine ⟨q, o, k⟩, by simp [lines], getLast?_encodeString_newline _⟩
  | finished v failing recovering n d =>
    exact ⟨.bare "------------", List.mem_cons_self, getLast?_encodeString_newline _⟩
  | _ => exact ⟨.headed _ _, List.mem_cons_self, hh _ _⟩

theorem getLast?_render (verbose : Bool) (e : Event) :
    (render ⟨false, verbose⟩ e).getLast? = some 10 := by
  obtain ⟨l, hl, hn⟩ := exists_ending_line verbose e
  rw [render_eq_lines]
  refine (atLineStart_lines (lines verbose e)).resolve_left fun h => ?_
  rw [List.flatMap_eq_nil_iff.1 h l hl] at hn
  cases hn

/-- The transcript of a run whose attempts can be told apart. -/
structure Attributed {Memory : Type} (s : Setup) (x : Executor Memory) (verbose : Bool) (r : Run)
    (opening : List Event) (stretches : List Stretch) (cut : List Event) : Prop where
  transcript : text verbose r.events = text verbose opening ++
    (stretches.flatMap fun t => t.finish.segment verbose ++ text verbose t.notes) ++
      text verbose cut
  events : r.events = opening ++ stretches.flatMap Stretch.events ++ cut
  opening : ∀ e ∈ opening, e.isOfAttempt = false
  notes : ∀ t ∈ stretches, ∀ e ∈ t.notes, e.isOfAttempt = false
  requests : r.requests = stretches.map (·.finish.request) ++ History.requests cut
  numbered : stretches.map (·.finish.request.attempt) = List.range' 1 stretches.length
  answered : ∀ t ∈ stretches, ∃ found memory left memory',
    x.run t.finish.request found memory = (.ok t.finish.outcome, left, memory')
  cut : cut = [] ∨ ∃ kind fault, cut = [.attemptStarted (s.request (stretches.length + 1) kind)] ∧
    r.ending = .fault fault

variable {Memory : Type} {s : Setup} {x : Executor Memory} {listen : Listener} {files : Files}
  {memory : Memory}

theorem answered_of_mem {q : Request} {o : Outcome} {k : Classification}
    (h : .attemptFinished q o k ∈ (supervise s x listen files memory).events) :
    ∃ found memory left memory', x.run q found memory = (.ok o, left, memory') := by
  obtain ⟨start, calls, last, -, ht⟩ := @told_supervise Memory s x listen files memory
  have hw : ⟨q, o, k⟩ ∈ finishes (supervise s x listen files memory).events :=
    List.mem_filterMap.2 ⟨_, h, rfl⟩
  obtain ⟨-, call, hc, hq, ha⟩ := ht.finishes _ hw
  obtain ⟨-, -, -, -, before, after, hx⟩ := ht.made.mem hc
  rw [hq, ha] at hx
  exact ⟨_, _, _, _, hx⟩

theorem fault_of_cut {es : List Event} {q : Request}
    (h : (supervise s x listen files memory).events = es ++ [.attemptStarted q]) :
    ∃ fault, (supervise s x listen files memory).ending = .fault fault := by
  cases he : (supervise s x listen files memory).ending with
  | fault fault => exact ⟨fault, rfl⟩
  | summary sm =>
    obtain ⟨_, _, -, -, hs⟩ := course_of_summary he
    simpa using List.append_inj_right' (hs.symm.trans h) rfl

theorem attributed_supervise (verbose : Bool) : ∃ opening stretches cut,
    Attributed s x verbose (supervise s x listen files memory) opening stretches cut := by
  have hs : Stage s (supervise s x listen files memory).events := stage_supervise List.prefix_rfl
  obtain ⟨opening, stretches, cut, h⟩ := hs.laid
  have ht : Stretched _ opening stretches := ⟨rfl, h.opening, h.notes⟩
  refine ⟨opening, stretches, cut, ?_, h.events, h.opening, h.notes, ?_, h.numbered, ?_, ?_⟩
  · rw [h.events, text_append, text_append, text_stretches]
  · rw [supervise_requests, h.events, requests_append, ht.requests]
  · intro t hm
    apply answered_of_mem (k := t.finish.classification)
    rw [h.events]
    refine List.mem_append_left _ (List.mem_append_right _ (List.mem_flatMap_of_mem hm ?_))
    simp [Stretch.events, Finish.events]
  · refine h.cut.imp_right fun ⟨kind, hk⟩ => ?_
    obtain ⟨fault, hf⟩ := fault_of_cut (hk ▸ h.events)
    exact ⟨kind, fault, hk, hf⟩

/-- Every text that is written ends a line, so that every line of the transcript
stands at the beginning of one; and the transcript has a segment for each attempt,
in their order, with the output as the executor gave it. -/
theorem transcript_attributable (s : Setup) (x : Executor Memory) (listen : Listener)
    (files : Files) (memory : Memory) (verbose : Bool) :
    let r := supervise s x listen files memory
    (∀ e, render ⟨false, verbose⟩ e ≠ [] ∧ (render ⟨false, verbose⟩ e).getLast? = some 10) ∧
    text verbose r.events = (r.events.flatMap (lines verbose)).flatMap Line.bytes ∧
    (∀ n, AtLineStart (((r.events.flatMap (lines verbose)).take n).flatMap Line.bytes)) ∧
    ∃ opening stretches cut, Attributed s x verbose r opening stretches cut := by
  refine ⟨fun e => ?_, text_eq_lines, fun n => atLineStart_lines _, attributed_supervise verbose⟩
  have hn := getLast?_render verbose e
  exact ⟨fun h => by simp [h] at hn, hn⟩

/-- Output without a newline of its own. -/
example : (Finish.mk ⟨2, .fullRun, ["./t"], [], none, none, none⟩
    ⟨.exited 1, .notExpected, encodeString "a\nb", ⟨5000000⟩⟩ (.executableFailed 1)).segment true =
    encodeString ("     RUNNING attempt 2: whole test binary\n" ++ "     command ./t\n" ++
      "a\nb\n" ++ "Test process exited with code 1\n" ++
      "        FAIL [   0.005s] attempt 2: test binary exited with code 1\n") := by
  unfold encodeString
  repeat rw [String.toList_append]
  repeat rw [toList_literal rfl]
  decide +kernel

end Retrial
