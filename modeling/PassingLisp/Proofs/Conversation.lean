import Mathlib.Data.List.Induction
import PassingLisp.CommandLine.Session
import PassingLisp.Proofs.Raised

namespace PassingLisp

namespace Discipline

theorem replies_help : raisable.Replies Prompt.help :=
  replies laws_raisable fun _ => answers_result laws_raisable trivial

end Discipline

open Discipline

theorem Outcome.needsMore_ofResult {s : State} {Q : Value → Nat → Prop}
    {r : Effect.Result Value} (h : raisable.Ends s Q r) :
    (Outcome.ofResult r).needsMore = false := by
  match r, h with
  | .ok v t, _ => cases v <;> rfl
  | .error .diverged t, _ => rfl
  | .error (.failed e) t, h =>
      have he : e.Raisable := h.2
      cases e with
      | parse e => exact he.elim
      | _ => rfl

namespace Session

variable {s : Session} {text : String}

section

variable (h : raisable.Governs s.interpreter)

include h

theorem needsMore_evalItem (item : Value) : (s.evalItem item).1.needsMore = false :=
  Outcome.needsMore_ofResult
    (h.ends Interpreter.ample (good_raisable s.state) trivial trivial)

theorem needsMore_evalItems {last : Outcome} (hlast : last.needsMore = false)
    (items : List Value) : (evalItems last items s).1.needsMore = false := by
  induction items generalizing s last with
  | nil => exact hlast
  | cons item items ih =>
      have hitem := needsMore_evalItem h item
      rw [evalItems]
      dsimp only
      split
      · exact hitem
      · exact ih (s := (s.evalItem item).2) h hitem

theorem evalLine_of_needsMore (hmore : (s.evalLine text).1.needsMore = true) :
    ∃ e, s.evalLine text = (.error (.parse e), s) ∧ e.kind = .incomplete := by
  unfold evalLine at hmore ⊢
  split at hmore
  · rename_i e he
    exact ⟨e, rfl, of_decide_eq_true hmore⟩
  · rename_i items he
    rw [needsMore_evalItems h rfl items] at hmore
    cases hmore

end

theorem interpreter_evalItems (last : Outcome) (items : List Value) (s : Session) :
    (evalItems last items s).2.interpreter = s.interpreter := by
  induction items generalizing s last with
  | nil => rfl
  | cons item items ih =>
      rw [evalItems]
      dsimp only
      split
      · rfl
      · exact ih _ _

theorem interpreter_evalLine (s : Session) (text : String) :
    (s.evalLine text).2.interpreter = s.interpreter := by
  unfold evalLine
  split
  · rfl
  · exact interpreter_evalItems _ _ s

structure Awaits (s : Session) (text : String) : Prop where
  unread : ∃ e, s.evalLine text = (.error (.parse e), s) ∧ e.kind = .incomplete
  silent : s.state.output = ""

def shown (s : Session) : Session :=
  { s with state := { s.state with output := "" } }

structure Ready (s : Session) : Prop where
  governs : raisable.Governs s.interpreter
  silent : s.state.output = ""

end Session

namespace Prompt

open Session

variable {s t : Session} {p : Prompt} {a : Answer} {line text : String}
  {block lines : List String} {c : Command} {outcome : Outcome}

def Answer.andThen (a : Answer) (f : Prompt → Answer) : Answer :=
  match a.next with
  | some p => ⟨a.output ++ (f p).output, (f p).next⟩
  | none => a

def feeds : Prompt → List String → Answer
  | p, [] => ⟨"", some p⟩
  | p, line :: lines => (p.feed line).andThen fun p => feeds p lines

theorem Answer.andThen_assoc (a : Answer) (f g : Prompt → Answer) :
    (a.andThen f).andThen g = a.andThen fun p => (f p).andThen g := by
  obtain ⟨out, _ | p⟩ := a
  · rfl
  · simp only [andThen]
    rcases f p with ⟨out', _ | q⟩
    · rfl
    · simp only [String.append_assoc]

theorem feeds_append (p : Prompt) (lines rest : List String) :
    p.feeds (lines ++ rest) = (p.feeds lines).andThen fun p => p.feeds rest := by
  induction lines generalizing p with
  | nil => simp [feeds, Answer.andThen]
  | cons line lines ih =>
      rw [List.cons_append, feeds, feeds, Answer.andThen_assoc]
      simp only [ih]

theorem feedAll_eq (p : Prompt) (lines : List String) :
    p.feedAll lines = (p.feeds lines).output ++ (p.feeds lines).next.elim "" close := by
  induction lines generalizing p with
  | nil => simp [feedAll, feeds]
  | cons line lines ih =>
      rw [feedAll, feeds]
      generalize p.feed line = a
      obtain ⟨out, _ | p⟩ := a
      · simp [Answer.andThen]
      · simp [Answer.andThen, ih, String.append_assoc]

theorem close_eq_farewell (p : Prompt) : p.close = "Goodbye!\n" := by
  rfl

def said (line : String) : String :=
  String.ofList (Text.trim line.toList)

def commands : List String :=
  [":help", ":env", ":forms", ":quit", ":exit"]

def Begins (block : List String) : Prop :=
  ∀ line, block.head? = some line → said line ≠ "" ∧ said line ∉ commands

def joined (block : List String) : String :=
  "\n".intercalate block

def Unfinished (s : Session) (block : List String) : Prop :=
  ∀ part, part ≠ [] → part <+: block → s.Awaits (joined part)

def holding (s : Session) (block : List String) : Prompt where
  session := s
  pending := if block = [] then none else some (joined block)

inductive Concludes : Outcome → Session → Answer → Prop where
  | value (v : Value) (t : Session) :
      Concludes (.value v) t ⟨t.state.output ++ v.text ++ "\n", some { session := t.shown }⟩
  | silent (t : Session) : Concludes .silent t ⟨t.state.output, some { session := t.shown }⟩
  | error {e : Error} (t : Session) (h : ∀ fault, e = .parse fault → fault.kind ≠ .incomplete) :
      Concludes (.error e) t
        ⟨t.state.output ++ "Error: " ++ e.message ++ "\n", some { session := t.shown }⟩
  | exit (t : Session) : Concludes .exit t ⟨t.state.output ++ "Goodbye!\n", none⟩
  | diverged (t : Session) : Concludes .diverged t ⟨t.state.output, none⟩

inductive Turn (s : Session) : List String → Answer → Prop where
  | blank {line : String} (h : said line = "") : Turn s [line] ⟨"", some { session := s }⟩
  | help {line : String} (h : said line = ":help") :
      Turn s [line] ⟨helpText, some { session := s }⟩
  | environment {line : String} (h : said line = ":env") :
      Turn s [line] ⟨environment (s.state.store.listing .globals), some { session := s }⟩
  | forms {line : String} (h : said line = ":forms") :
      Turn s [line] ⟨forms s.interpreter.forms.names, some { session := s }⟩
  | quit {line : String} (h : said line = ":quit" ∨ said line = ":exit") :
      Turn s [line] ⟨"Goodbye!\n", none⟩
  | chunk {block : List String} {line : String} {outcome : Outcome} {t : Session} {a : Answer}
      (hb : Begins (block ++ [line])) (hu : Unfinished s block)
      (heval : s.evalLine (joined (block ++ [line])) = (outcome, t)) (ha : Concludes outcome t a) :
      Turn s (block ++ [line]) a

inductive Conversation : Session → List String → Answer → Prop where
  | waiting {s : Session} {block : List String} (hb : Begins block) (hu : Unfinished s block) :
      Conversation s block ⟨"", some (holding s block)⟩
  | turn {s t : Session} {block lines : List String} {out : String} {a : Answer}
      (h : Turn s block ⟨out, some { session := t }⟩) (hrest : Conversation t lines a) :
      Conversation s (block ++ lines) ⟨out ++ a.output, a.next⟩
  | ended {s : Session} {block : List String} {out : String} (h : Turn s block ⟨out, none⟩)
      (lines : List String) : Conversation s (block ++ lines) ⟨out, none⟩

theorem joined_append_singleton (h : block ≠ []) (line : String) :
    joined (block ++ [line]) = joined block ++ "\n" ++ line := by
  rw [joined, String.intercalate_append_of_ne_nil h (by simp), String.intercalate_singleton]
  rfl

theorem submit_of_awaits (h : p.session.Awaits text) :
    p.submit text = ⟨"", some { session := p.session, pending := some text }⟩ := by
  obtain ⟨⟨e, he, hkind⟩, hsilent⟩ := h
  have hmore : (Outcome.error (.parse e)).needsMore = true := decide_eq_true hkind
  have htake : p.session.takeOutput = ("", p.session) := by
    obtain ⟨⟨i, ⟨store, stack, output⟩, comments⟩, pending⟩ := p
    obtain rfl : output = "" := hsilent
    rfl
  simp only [submit, he, htake, hmore, if_true]

theorem needsMore_eq_false_iff {e : Error} :
    e.needsMore = false ↔ ∀ fault, e = .parse fault → fault.kind ≠ .incomplete := by
  cases e with
  | parse fault => simp [Error.needsMore, ParseError.needsMore]
  | _ => simp [Error.needsMore]

theorem exists_concludes (h : outcome.needsMore = false) (t : Session) :
    ∃ a, Concludes outcome t a := by
  cases outcome with
  | value v => exact ⟨_, .value v t⟩
  | silent => exact ⟨_, .silent t⟩
  | error e => exact ⟨_, .error t (needsMore_eq_false_iff.mp h)⟩
  | exit => exact ⟨_, .exit t⟩
  | diverged => exact ⟨_, .diverged t⟩

theorem submit_of_concludes (h : p.session.evalLine text = (outcome, t))
    (ha : Concludes outcome t a) : p.submit text = a := by
  rw [submit, h]
  cases ha with
  | @error e t hfault =>
      have hmore : (Outcome.error e).needsMore = false := needsMore_eq_false_iff.mpr hfault
      simp only [hmore]
      rfl
  | _ => rfl

theorem feed_blank (h : said line = "") :
    feed { session := s } line = ⟨"", some { session := s }⟩ := by
  simp only [feed, ← said.eq_1, h]
  rfl

theorem feed_command (h : Command.ofText? (said line) = some c) :
    feed { session := s } line = obey { session := s } c := by
  have hne : (said line).isEmpty = false := by
    rw [← Bool.not_eq_true, String.isEmpty_iff]
    intro hempty
    rw [hempty] at h
    cases h
  simp only [feed, ← said.eq_1, hne, h]
  rfl

theorem turn_of_command (h : Command.ofText? (said line) = some c) :
    Turn s [line] (obey { session := s } c) := by
  rw [Command.ofText?] at h
  split_ifs at h with hhelp henv hforms hquit
  · cases h
    exact .help hhelp
  · cases h
    exact .environment henv
  · cases h
    exact .forms hforms
  · cases h
    exact .quit (by simpa using hquit)

theorem ofText?_eq_none_iff : Command.ofText? text = none ↔ text ∉ commands := by
  rw [Command.ofText?, commands]
  split_ifs <;> simp_all

theorem feed_holding (hb : Begins (block ++ [line])) :
    (holding s block).feed line = (holding s block).submit (joined (block ++ [line])) := by
  by_cases hblock : block = []
  · subst hblock
    obtain ⟨hne, hcommand⟩ := hb line rfl
    have hne : (said line).isEmpty = false := by
      rwa [← Bool.not_eq_true, String.isEmpty_iff]
    have hcommand := ofText?_eq_none_iff.mpr hcommand
    simp only [feed, holding, if_true, ← said.eq_1, hne, hcommand]
    rfl
  · simp only [feed, holding, if_neg hblock, joined_append_singleton hblock]

theorem unfinished_nil (s : Session) : Unfinished s [] :=
  fun _ hne hpart => absurd (List.prefix_nil.mp hpart) hne

theorem begins_nil : Begins [] :=
  fun _ h => nomatch h

theorem Unfinished.concat (hu : Unfinished s block) (h : s.Awaits (joined (block ++ [line]))) :
    Unfinished s (block ++ [line]) := by
  intro part hne hpart
  rcases List.prefix_concat_iff.mp hpart with rfl | hpart
  · exact h
  · exact hu part hne hpart

theorem Begins.of_concat (hb : Begins (block ++ [line])) : Begins block := by
  intro first hfirst
  apply hb
  rw [List.head?_append, hfirst]
  rfl

theorem begins_or_turn (hb : Begins block) (s : Session) (line : String) :
    Begins (block ++ [line]) ∨
      block = [] ∧ ∃ a, Turn s [line] a ∧ feed { session := s } line = a := by
  cases block with
  | cons first block => exact .inl hb
  | nil =>
      by_cases hblank : said line = ""
      · exact .inr ⟨rfl, _, .blank hblank, feed_blank hblank⟩
      · cases hcommand : Command.ofText? (said line) with
        | some c => exact .inr ⟨rfl, _, turn_of_command hcommand, feed_command hcommand⟩
        | none =>
            refine .inl fun first hfirst => ?_
            cases hfirst
            exact ⟨hblank, ofText?_eq_none_iff.mp hcommand⟩

theorem feed_of_awaits (hb : Begins (block ++ [line])) (h : s.Awaits (joined (block ++ [line]))) :
    (holding s block).feed line = ⟨"", some (holding s (block ++ [line]))⟩ := by
  rw [feed_holding hb, submit_of_awaits h]
  simp [holding]

theorem feed_of_concludes (hb : Begins (block ++ [line]))
    (h : s.evalLine (joined (block ++ [line])) = (outcome, t)) (ha : Concludes outcome t a) :
    (holding s block).feed line = a :=
  (feed_holding hb).trans (submit_of_concludes h ha)

theorem feeds_of_unfinished (hb : Begins block) (hu : Unfinished s block) :
    feeds { session := s } block = ⟨"", some (holding s block)⟩ := by
  induction block using List.reverseRecOn with
  | nil => rfl
  | append_singleton block line ih =>
      have hprefix (part : List String) (hne : part ≠ []) (hpart : part <+: block) :=
        hu part hne (hpart.trans (List.prefix_append block [line]))
      rw [feeds_append, ih hb.of_concat hprefix]
      simp [feeds, Answer.andThen, feed_of_awaits hb (hu _ (by simp) List.prefix_rfl)]

theorem feeds_singleton (p : Prompt) (line : String) : p.feeds [line] = p.feed line := by
  rw [feeds]
  generalize p.feed line = a
  obtain ⟨out, _ | p⟩ := a
  · rfl
  · simp [Answer.andThen, feeds]

theorem Turn.feeds_eq (h : Turn s block a) : feeds { session := s } block = a := by
  cases h with
  | blank h => rw [feeds_singleton, feed_blank h]
  | help h => rw [feeds_singleton, feed_command (h ▸ rfl : _ = some .help), obey]
  | environment h => rw [feeds_singleton, feed_command (h ▸ rfl : _ = some .environment), obey]
  | forms h => rw [feeds_singleton, feed_command (h ▸ rfl : _ = some .forms), obey]
  | quit h =>
      rw [feeds_singleton]
      rcases h with h | h
      · rw [feed_command (h ▸ rfl : _ = some .quit), obey, farewell]
      · rw [feed_command (h ▸ rfl : _ = some .quit), obey, farewell]
  | chunk hb hu heval ha =>
      rw [feeds_append, feeds_of_unfinished hb.of_concat hu, Answer.andThen]
      dsimp only
      rw [feeds_singleton, feed_of_concludes hb heval ha, String.empty_append]

theorem Conversation.feeds_eq (h : Conversation s lines a) :
    feeds { session := s } lines = a := by
  induction h with
  | waiting hb hu => exact feeds_of_unfinished hb hu
  | turn h _ ih =>
      rw [feeds_append, h.feeds_eq, ← ih]
      rfl
  | ended h lines =>
      rw [feeds_append, h.feeds_eq]
      rfl

theorem Concludes.next_eq (h : Concludes outcome t a) (hp : a.next = some p) :
    p = { session := t.shown } := by
  cases h with
  | value | silent | error => exact (Option.some.inj hp).symm
  | exit | diverged => cases hp

theorem Turn.exists_ready (hs : s.Ready) (h : Turn s block a) (hp : a.next = some p) :
    ∃ t, p = { session := t } ∧ t.Ready := by
  cases h with
  | blank | help | environment | forms => exact ⟨s, (Option.some.inj hp).symm, hs⟩
  | quit => cases hp
  | @chunk block line outcome t a hb hu heval ha =>
      have hsame := interpreter_evalLine s (joined (block ++ [line]))
      rw [heval] at hsame
      exact ⟨t.shown, ha.next_eq hp, hsame ▸ hs.governs, rfl⟩

theorem conversation_of_turn (hs : s.Ready) (h : Turn s block a)
    (hrest : ∀ t, t.Ready → Conversation t lines (feeds { session := t } lines)) :
    Conversation s (block ++ lines) (a.andThen fun p => p.feeds lines) := by
  obtain ⟨out, _ | p⟩ := a
  · exact .ended h lines
  · obtain ⟨t, rfl, ht⟩ := h.exists_ready hs rfl
    exact .turn h (hrest t ht)

theorem conversation_of_feeds (hs : s.Ready) (hb : Begins block) (hu : Unfinished s block)
    (lines : List String) : Conversation s (block ++ lines) ((holding s block).feeds lines) := by
  induction lines generalizing s block with
  | nil =>
      rw [List.append_nil]
      exact .waiting hb hu
  | cons line lines ih =>
      have hrest (t : Session) (ht : t.Ready) :
          Conversation t lines (feeds { session := t } lines) :=
        ih ht begins_nil (unfinished_nil t)
      rw [feeds]
      rcases begins_or_turn hb s line with hbegins | ⟨rfl, a, hturn, hfeed⟩
      · cases hmore : (s.evalLine (joined (block ++ [line]))).1.needsMore with
        | true =>
            have hawaits : s.Awaits (joined (block ++ [line])) :=
              ⟨evalLine_of_needsMore hs.governs hmore, hs.silent⟩
            have hconversation := ih hs hbegins (hu.concat hawaits)
            rw [feed_of_awaits hbegins hawaits]
            simpa [Answer.andThen] using hconversation
        | false =>
            cases heval : s.evalLine (joined (block ++ [line])) with
            | mk outcome t =>
                obtain ⟨a, ha⟩ := exists_concludes (heval ▸ hmore) t
                have hturn := Turn.chunk hbegins hu heval ha
                have hconversation := conversation_of_turn hs hturn hrest
                rwa [feed_of_concludes hbegins heval ha, List.append_cons]
      · exact hfeed ▸ conversation_of_turn hs hturn hrest

theorem interpreter_session (o : Options) : (CommandLine.session o).interpreter =
    { maxDepth := o.maxDepth, builtins := (Builtin.core.map (·.2)).toArray.push help } := by
  rfl

theorem ready_session (o : Options) : (CommandLine.session o).Ready where
  governs := by
    rw [interpreter_session]
    refine ⟨laws_raisable, id, Routine.hosts_core laws_raisable fun _ _ => trivial,
      fun _ _ => trivial, fun h => ?_⟩
    rw [Array.getElem?_push] at h
    split at h
    · cases h
      exact replies_help
    · exact replies_of_core laws_raisable h
  silent := by rfl

theorem feeds_iff_conversation (o : Options) (lines : List String) :
    (∀ a, feeds { session := CommandLine.session o } lines = a ↔
        Conversation (CommandLine.session o) lines a) ∧
      feedAll { session := CommandLine.session o } lines =
        (feeds { session := CommandLine.session o } lines).output ++
          (feeds { session := CommandLine.session o } lines).next.elim ""
            fun _ => "Goodbye!\n" := by
  refine ⟨fun a => ⟨?_, fun h => h.feeds_eq⟩, ?_⟩
  · rintro rfl
    exact conversation_of_feeds (ready_session o) begins_nil (unfinished_nil _) lines
  · have hclose : close = fun _ => "Goodbye!\n" := funext close_eq_farewell
    rw [feedAll_eq, hclose]

end Prompt

end PassingLisp
