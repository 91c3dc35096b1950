import PassingLisp.Proofs.Stopping

namespace PassingLisp

theorem Text.length_le_byteLength (s : List Char) : s.length ≤ byteLength s := by
  induction s with
  | nil => exact Nat.le_refl 0
  | cons c s ih =>
      have hc := c.utf8Size_pos
      rw [List.length_cons, byteLength_cons]
      omega

namespace ParseError

variable {context lead rest s t part : List Char} {place i : Nat} {c : Char}

theorem flatten_append (s t : List Char) : flatten (s ++ t) = flatten s ++ flatten t := by
  simp only [flatten, List.flatMap_append, List.filter_append]

theorem flatten_cutMark : flatten cutMark = cutMark := by
  decide

theorem mem_flatten (hc : c ∈ s) (hline : c ≠ '\n') (hreturn : c ≠ '\r') : c ∈ flatten s := by
  refine List.mem_filter.mpr ⟨List.mem_flatMap.mpr ⟨c, hc, ?_⟩, decide_eq_true hreturn⟩
  rw [if_neg hline]
  exact List.mem_singleton_self c

def cut (part : List Char) : List Char :=
  if part = [] then [] else cutMark

theorem cut_congr (h : s = [] ↔ t = []) : cut s = cut t := by
  simp only [cut, h]

theorem mark_eq_cut_iff {p : Prop} [Decidable p] :
    (if p then cutMark else []) = cut part ↔ (p ↔ part ≠ []) := by
  have hmark : cutMark ≠ [] := by decide
  unfold cut
  by_cases hp : p <;> by_cases hpart : part = [] <;> simp [hp, hpart, hmark, hmark.symm]

structure Piece where
  before : List Char
  shown : List Char
  after : List Char

namespace Piece

variable {p q : Piece}

def text (p : Piece) : List Char :=
  p.before ++ p.shown ++ p.after

structure Shows (p : Piece) (place : Nat) (context : List Char) : Prop where
  fits : p.shown.length ≤ 100
  begins : p.before.length ≤ place
  covers : place < p.before.length + p.shown.length ∨
    p.after = [] ∧ place = p.before.length + p.shown.length
  eq : context = cut p.before ++ flatten p.shown ++ cut p.after

theorem Shows.offset (h : p.Shows place context) :
    place - p.before.length < p.shown.length ∨
      p.after = [] ∧ place - p.before.length = p.shown.length := by
  have hbegins := h.begins
  rcases h.covers with hlt | ⟨hnil, hend⟩
  · left
    omega
  · right
    exact ⟨hnil, by omega⟩

theorem Shows.transport (h : p.Shows place context) (hshown : p.shown = q.shown)
    (hbefore : p.before = [] ↔ q.before = []) (hafter : p.after = [] ↔ q.after = []) :
    q.Shows (q.before.length + (place - p.before.length)) context where
  fits := hshown ▸ h.fits
  begins := Nat.le_add_right _ _
  covers := by
    rw [← hafter, ← hshown]
    rcases h.offset with hlt | ⟨hnil, hend⟩
    · left
      omega
    · right
      exact ⟨hnil, by omega⟩
  eq := by
    rw [← cut_congr hbefore, ← cut_congr hafter, ← hshown]
    exact h.eq

theorem Shows.mem (h : p.Shows place context) (hi : p.before.length ≤ i) (hle : i ≤ place)
    (hc : p.text[i]? = some c) (hline : c ≠ '\n') (hreturn : c ≠ '\r') : c ∈ context := by
  have hlt : i < (p.before ++ p.shown).length := by
    by_contra hge
    have hend := h.covers
    rw [List.length_append] at hge
    rcases hend with hlt | ⟨hnil, hend⟩
    · omega
    · rw [text, hnil, List.append_nil, List.getElem?_eq_none (by rw [List.length_append]; omega)]
        at hc
      cases hc
  rw [text, List.getElem?_append_left hlt, List.getElem?_append_right hi] at hc
  rw [h.eq]
  have hshown := mem_flatten (List.mem_of_getElem? hc) hline hreturn
  exact List.mem_append_left _ (List.mem_append_right _ hshown)

theorem Shows.before_eq_nil (h : p.Shows place context) (hhead : context.head? ≠ some '[') :
    p.before = [] := by
  by_contra hne
  rw [h.eq, cut, if_neg hne] at hhead
  exact hhead rfl

end Piece

def PointsAt (text : List Char) (place : Nat) (context : List Char) : Prop :=
  ∃ p : Piece, p.text = text ∧ p.Shows place context

theorem PointsAt.mem (h : PointsAt s place context) (hc : s[place]? = some c) (hline : c ≠ '\n')
    (hreturn : c ≠ '\r') : c ∈ context := by
  obtain ⟨p, rfl, hshows⟩ := h
  exact hshows.mem hshows.begins le_rfl hc hline hreturn

theorem PointsAt.mem_of_le (h : PointsAt s place context) (hhead : context.head? ≠ some '[')
    (hle : i ≤ place) (hc : s[i]? = some c) (hline : c ≠ '\n') (hreturn : c ≠ '\r') :
    c ∈ context := by
  obtain ⟨p, rfl, hshows⟩ := h
  have hi : p.before.length ≤ i := by
    rw [hshows.before_eq_nil hhead]
    exact Nat.zero_le i
  exact hshows.mem hi hle hc hline hreturn

def opening (lead : List Char) : Nat :=
  Text.byteLength lead - windowLead

def view (lead rest : List Char) : Piece where
  before := (lead ++ rest).take (opening lead)
  shown := ((lead ++ rest).drop (opening lead)).take windowSize
  after := (lead ++ rest).drop (opening lead + windowSize)

@[simp] theorem text_view (lead rest : List Char) : (view lead rest).text = lead ++ rest := by
  rw [Piece.text, view, ← List.drop_drop, List.append_assoc, List.take_append_drop,
    List.take_append_drop]

theorem length_before (lead rest : List Char) :
    (view lead rest).before.length = min (opening lead) (lead.length + rest.length) := by
  rw [view, List.length_take, List.length_append]

theorem length_shown (lead rest : List Char) :
    (view lead rest).shown.length = min 100 (lead.length + rest.length - opening lead) := by
  rw [view, List.length_take, List.length_drop, List.length_append, windowSize]

theorem after_eq_nil_iff (lead rest : List Char) :
    (view lead rest).after = [] ↔ lead.length + rest.length ≤ opening lead + 100 := by
  rw [view, List.drop_eq_nil_iff, List.length_append, windowSize]

theorem byteLength_view (lead rest : List Char) :
    Text.byteLength lead + Text.byteLength rest = Text.byteLength (view lead rest).before +
      Text.byteLength (view lead rest).shown + Text.byteLength (view lead rest).after := by
  rw [← Text.byteLength_append, ← Text.byteLength_append, ← Text.byteLength_append]
  exact congrArg Text.byteLength (text_view lead rest).symm

theorem excerpt_eq (lead rest : List Char) :
    excerpt (lead ++ rest) (Text.byteLength lead) =
      cut (view lead rest).before ++ flatten (view lead rest).shown ++
        (if opening lead + Text.byteLength (view lead rest).shown <
          Text.byteLength lead + Text.byteLength rest then cutMark else []) := by
  have hfront : (if 0 < opening lead then cutMark else []) = cut (view lead rest).before := by
    rw [mark_eq_cut_iff, view, ne_eq, List.take_eq_nil_iff, not_or]
    constructor
    · intro hpos
      refine ⟨by omega, ?_⟩
      have hlead : lead ≠ [] := by
        rintro rfl
        cases hpos
      simp [hlead]
    · omega
  unfold excerpt
  simp only [flatten_append, apply_ite flatten, flatten_cutMark]
  rw [← hfront, Text.byteLength_append]
  rfl

/-- The place is not so many bytes into the text that the window opens behind it, and where the
window reaches to the end of the text, there are no more bytes than characters before it. -/
structure Aligned (lead rest : List Char) : Prop where
  reached : Text.byteLength lead ≤ lead.length + 20
  closed : lead.length + rest.length ≤ opening lead + 100 →
    Text.byteLength (view lead rest).before = opening lead

theorem shows_excerpt_iff (lead rest : List Char) :
    (view lead rest).Shows lead.length (excerpt (lead ++ rest) (Text.byteLength lead)) ↔
      Aligned lead rest := by
  have hopening : opening lead = Text.byteLength lead - 20 := rfl
  have hlead := Text.length_le_byteLength lead
  have hbefore := Text.length_le_byteLength (view lead rest).before
  have hafter := Text.byteLength_eq_zero_iff (s := (view lead rest).after)
  have hbytes := byteLength_view lead rest
  have hshown := length_shown lead rest
  rw [after_eq_nil_iff] at hafter
  rw [length_before] at hbefore
  constructor
  · intro h
    have hmark := h.eq
    rw [excerpt_eq, List.append_cancel_left_eq, mark_eq_cut_iff, ne_eq, after_eq_nil_iff] at hmark
    have hbegins := h.begins
    rw [length_before] at hbegins
    have hreached : opening lead ≤ lead.length := by
      by_contra hlate
      have hnone : (view lead rest).shown = [] := by
        rw [← List.length_eq_zero_iff]
        omega
      rw [hnone, Text.byteLength_nil] at hmark
      omega
    refine ⟨by omega, fun hshort => ?_⟩
    have hnil := hafter.mpr hshort
    omega
  · intro h
    have hreached := h.reached
    have hclosed := h.closed
    refine ⟨by omega, by rw [length_before]; omega, ?_, ?_⟩
    · rw [after_eq_nil_iff, length_before, hshown]
      omega
    · rw [excerpt_eq, List.append_cancel_left_eq, mark_eq_cut_iff, ne_eq, after_eq_nil_iff]
      omega

theorem aligned_of_ascii (h : Text.byteLength lead = lead.length) (rest : List Char) :
    Aligned lead rest := by
  have hle : opening lead ≤ lead.length := by
    rw [opening, h]
    exact Nat.sub_le _ _
  refine ⟨by omega, fun _ => ?_⟩
  have hview : (view lead rest).before = lead.take (opening lead) :=
    List.take_append_of_le_length hle
  have hparts : Text.byteLength lead =
      Text.byteLength (lead.take (opening lead)) + Text.byteLength (lead.drop (opening lead)) := by
    rw [← Text.byteLength_append, List.take_append_drop]
  have hbefore := Text.length_le_byteLength (lead.take (opening lead))
  have hafter := Text.length_le_byteLength (lead.drop (opening lead))
  rw [List.length_take] at hbefore
  rw [List.length_drop] at hafter
  rw [hview]
  omega

end ParseError

namespace Reader

namespace Comment

variable {place : Place} {n : Nat} {s t before piece after : List Char}

/-- How far into a text the character stands that is so far into what is left of it without its
comments. Behind the last character left comes the end of the text. -/
def originFrom : Place → List Char → Nat → Nat
  | _, [], _ => 0
  | place, c :: rest, n =>
      let place := next place c
      if place = .comment then originFrom place rest n + 1
      else if n = 0 then 0
      else originFrom place rest (n - 1) + 1

theorem getElem?_originFrom (place : Place) (s : List Char) (n : Nat) :
    s[originFrom place s n]? = (stripFrom place s)[n]? := by
  induction s generalizing place n with
  | nil => rfl
  | cons c s ih =>
      rw [originFrom, stripFrom]
      split
      · exact ih _ n
      · cases n with
        | zero => rfl
        | succ n => exact ih _ n

theorem originFrom_append (place : Place) (s t : List Char) (n : Nat) :
    originFrom place (s ++ t) ((stripFrom place s).length + n) =
      s.length + originFrom (Comment.after place s) t n := by
  induction s generalizing place with
  | nil => simp [stripFrom, Comment.after]
  | cons c s ih =>
      have ih := ih (next place c)
      rw [List.cons_append, originFrom, stripFrom, after_cons, List.length_cons]
      split
      · rw [ih]
        omega
      · have hpos : ¬ (stripFrom (next place c) s).length + 1 + n = 0 := by omega
        have hpred : (stripFrom (next place c) s).length + 1 + n - 1 =
            (stripFrom (next place c) s).length + n := by omega
        rw [List.length_cons, if_neg hpos, hpred, ih]
        omega

theorem stripFrom_eq_of_append (h : stripFrom place (s ++ t) = s ++ t) :
    stripFrom place s = s ∧ stripFrom (Comment.after place s) t = t := by
  rw [stripFrom_append] at h
  have hs := (stripFrom_sublist place s).length_le
  have ht := (stripFrom_sublist (Comment.after place s) t).length_le
  have hlength := congrArg List.length h
  rw [List.length_append, List.length_append] at hlength
  exact List.append_inj h (by omega)

theorem originFrom_zero (h : stripFrom place s = s) (hs : s ≠ []) (t : List Char) :
    originFrom place (s ++ t) 0 = 0 := by
  obtain ⟨c, s, rfl⟩ := List.exists_cons_of_ne_nil hs
  have hnext : next place c ≠ .comment := by
    intro hnext
    rw [stripFrom, if_pos hnext] at h
    have hle := (stripFrom_sublist (next place c) s).length_le
    rw [h, List.length_cons] at hle
    omega
  rw [List.cons_append, originFrom]
  exact if_neg hnext

theorem originFrom_kept (hpiece : stripFrom (Comment.after place before) piece = piece)
    (hn : n < piece.length ∨ after = [] ∧ n = piece.length) :
    originFrom place (before ++ piece ++ after) ((stripFrom place before).length + n) =
      before.length + n := by
  have hle : n ≤ piece.length := by omega
  obtain ⟨u, v, rfl, hu⟩ : ∃ u v, piece = u ++ v ∧ u.length = n :=
    ⟨piece.take n, piece.drop n, (List.take_append_drop n piece).symm,
      List.length_take_of_le hle⟩
  obtain ⟨hstrip, hkept⟩ := stripFrom_eq_of_append hpiece
  have hprefix := originFrom_append (Comment.after place before) u (v ++ after) 0
  rw [hstrip, hu, Nat.add_zero] at hprefix
  rw [List.append_assoc, List.append_assoc, originFrom_append, hprefix]
  rcases hn with hlt | ⟨rfl, hend⟩
  · have hv : v ≠ [] := by
      rintro rfl
      simp [hu] at hlt
    rw [originFrom_zero hkept hv after]
    rfl
  · have hv : v = [] := by
      rw [List.length_append, hu] at hend
      exact List.length_eq_zero_iff.mp (by omega)
    subst hv
    rfl

end Comment

open ParseError

variable {comments : Bool} {text context lead rest before piece after front : List Char}
  {place n : Nat} {p : Piece}

def sourceOf (comments : Bool) (text : List Char) : List Char :=
  if comments then Comment.strip text else text

def origin (comments : Bool) (text : List Char) (place : Nat) : Nat :=
  if comments then Comment.originFrom .code text place else place

theorem getElem?_origin (comments : Bool) (text : List Char) (place : Nat) :
    text[origin comments text place]? = (sourceOf comments text)[place]? := by
  cases comments with
  | false => rfl
  | true => exact Comment.getElem?_originFrom .code text place

theorem origin_kept (hbefore : sourceOf comments before = front)
    (hpiece : sourceOf comments (before ++ piece) = front ++ piece)
    (hn : n < piece.length ∨ after = [] ∧ n = piece.length) :
    origin comments (before ++ piece ++ after) (front.length + n) = before.length + n := by
  cases comments with
  | false =>
      have hsame : before = front := hbefore
      rw [hsame]
      rfl
  | true =>
      have hstrip : Comment.stripFrom .code before = front := hbefore
      have hboth : Comment.stripFrom .code (before ++ piece) = front ++ piece := hpiece
      rw [Comment.stripFrom_append, hstrip] at hboth
      have hkept := Comment.originFrom_kept (List.append_cancel_left hboth) hn
      rwa [hstrip] at hkept

def Whole (comments : Bool) (text : List Char) (p : Piece) : Prop :=
  ∃ before after, text = before ++ p.shown ++ after ∧ sourceOf comments before = p.before ∧
    sourceOf comments (before ++ p.shown) = p.before ++ p.shown ∧
    (p.before = [] → before = []) ∧ (p.after = [] → after = [])

theorem whole_of_sourceOf (h : sourceOf comments p.text = p.text) : Whole comments p.text p := by
  refine ⟨p.before, p.after, rfl, ?_, ?_, id, id⟩
  · cases comments with
    | false => rfl
    | true =>
        have hprefix := (Comment.stripFrom_eq_of_append h).1
        exact (Comment.stripFrom_eq_of_append hprefix).1
  · cases comments with
    | false => rfl
    | true => exact (Comment.stripFrom_eq_of_append h).1

theorem pointsAt_of_whole (h : p.Shows place context) (hsource : sourceOf comments text = p.text)
    (hwhole : Whole comments text p) : PointsAt text (origin comments text place) context := by
  obtain ⟨before, after, rfl, hbefore, hshown, hfront, hback⟩ := hwhole
  have hnil : p.before = [] ↔ before = [] := by
    refine ⟨hfront, ?_⟩
    rintro rfl
    rw [← hbefore]
    cases comments <;> rfl
  have hnil' : p.after = [] ↔ after = [] := by
    refine ⟨hback, ?_⟩
    rintro rfl
    rw [List.append_nil, hshown, Piece.text] at hsource
    simpa using hsource
  have hoffset := h.offset
  rw [hnil'] at hoffset
  have hplace := origin_kept hbefore hshown hoffset
  rw [Nat.add_sub_cancel' h.begins] at hplace
  rw [hplace]
  exact ⟨⟨before, p.shown, after⟩, rfl, h.transport rfl hnil hnil'⟩

structure Views (comments : Bool) (text lead rest context : List Char) : Prop where
  source : sourceOf comments text = lead ++ rest
  eq : context = cut (view lead rest).before ++ flatten (view lead rest).shown ++
    (if opening lead + Text.byteLength (view lead rest).shown <
      Text.byteLength lead + Text.byteLength rest then cutMark else [])
  stands : text[origin comments text lead.length]? = rest.head?
  shows_iff : (view lead rest).Shows lead.length context ↔ Aligned lead rest
  ascii : Text.byteLength lead = lead.length → Aligned lead rest
  points : Aligned lead rest → Whole comments text (view lead rest) →
    PointsAt text (origin comments text lead.length) context
  whole : sourceOf comments text = text → Whole comments text (view lead rest)

theorem views_excerpt (h : sourceOf comments text = lead ++ rest) :
    Views comments text lead rest (excerpt (lead ++ rest) (Text.byteLength lead)) where
  source := h
  eq := excerpt_eq lead rest
  stands := by
    rw [getElem?_origin, h, List.getElem?_append_right le_rfl, Nat.sub_self, List.head?_eq_getElem?]
  shows_iff := shows_excerpt_iff lead rest
  ascii h := aligned_of_ascii h rest
  points halign :=
    pointsAt_of_whole ((shows_excerpt_iff lead rest).mpr halign) (h.trans (text_view lead rest).symm)
  whole hsame := by
    have htext : (view lead rest).text = text := by
      rw [text_view, ← h, hsame]
    have hwhole := whole_of_sourceOf (htext ▸ hsame)
    rwa [htext] at hwhole

theorem context_views (text : List Char) :
    (∀ e, one text = .error e → ∃ lead context,
      e.context = some (String.ofList context) ∧
        Views false text lead (stop (datum maxNesting text)) context) ∧
    ∀ comments e, program comments text = .error e → ∃ lead context,
      e.context = some (String.ofList context) ∧
        Views comments text lead (stop (many (datum maxNesting)
          ((sourceOf comments text).length + 1) (sourceOf comments text))) context := by
  refine ⟨fun e h => ?_, fun comments e h => ?_⟩
  · obtain ⟨lead, hlead, hcontext⟩ := exists_lead_of_one h
    rw [hlead] at hcontext
    exact ⟨lead, _, hcontext, views_excerpt hlead⟩
  · obtain ⟨lead, hlead, hcontext⟩ := exists_lead_of_sequence (s := sourceOf comments text) h
    rw [hlead] at hcontext
    exact ⟨lead, _, hcontext, views_excerpt hlead⟩

def accented (n : Nat) : List Char :=
  '"' :: (List.replicate n 'é' ++ "\" )".toList)

theorem aligned_accented : Aligned ((accented 9).take 12) [')'] :=
  ⟨by decide, fun _ => by decide⟩

theorem context_views_accented :
    (∃ e context, one (accented 9) = .error e ∧ e.context = some (String.ofList context) ∧
      PointsAt (accented 9) 12 context) ∧
    ∃ e context, program true (accented 9) = .error e ∧
      e.context = some (String.ofList context) ∧
      PointsAt (accented 9) (origin true (accented 9) 12) context := by
  obtain ⟨hone, hprogram⟩ := context_views (accented 9)
  have hlead {lead : List Char} (h : accented 9 = lead ++ [')']) : lead = (accented 9).take 12 := by
    have hsplit : lead ++ [')'] = (accented 9).take 12 ++ [')'] := h.symm
    exact List.append_cancel_right hsplit
  refine ⟨?_, ?_⟩
  · obtain ⟨e, he⟩ : ∃ e, one (accented 9) = .error e := ⟨_, rfl⟩
    obtain ⟨lead, context, hcontext, hviews⟩ := hone e he
    obtain rfl := hlead hviews.source
    exact ⟨e, context, he, hcontext, hviews.points aligned_accented (hviews.whole rfl)⟩
  · obtain ⟨e, he⟩ : ∃ e, program true (accented 9) = .error e := ⟨_, rfl⟩
    obtain ⟨lead, context, hcontext, hviews⟩ := hprogram true e he
    obtain rfl := hlead hviews.source
    exact ⟨e, context, he, hcontext, hviews.points aligned_accented (hviews.whole rfl)⟩

def commented : List Char :=
  ";a\n)".toList

theorem context_misses_place :
    (∃ e context, one (accented 21) = .error e ∧ e.context = some (String.ofList context) ∧
      stop (datum maxNesting (accented 21)) = (accented 21).drop 24 ∧
      ¬ PointsAt (accented 21) 24 context) ∧
    ∃ e context, program true commented = .error e ∧ e.context = some (String.ofList context) ∧
      stop (many (datum maxNesting) ((sourceOf true commented).length + 1)
        (sourceOf true commented)) = [')'] ∧
      ¬ PointsAt commented (origin true commented 1) context := by
  refine ⟨⟨_, "[...][...]".toList, rfl, ?_, rfl, fun h => ?_⟩,
    ⟨_, "\\n)".toList, rfl, ?_, rfl, fun h => ?_⟩⟩
  · rfl
  · have hmem := h.mem (c := ')') rfl (by decide) (by decide)
    revert hmem
    decide
  · rfl
  · have hmem := h.mem_of_le (c := ';') (by decide) (Nat.zero_le _) rfl (by decide) (by decide)
    revert hmem
    decide

end Reader

end PassingLisp
