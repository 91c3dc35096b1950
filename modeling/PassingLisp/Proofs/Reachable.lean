import PassingLisp.Proofs.Layers

namespace PassingLisp

namespace Value

def Bare (v : Value) : Prop :=
  v.IsReference ∨ v.IsDelayed ∨ v = eof

def Unaliased (v : Value) : Prop :=
  ∀ u : Value, u.IsReference → ¬ u.Within v

variable {n : Nat} {v : Value}

theorem Held.not_bare (h : v.Held n) (hd : ¬ v.IsDelayed) : ¬ v.Bare := by
  rintro (hr | hd' | rfl)
  · exact h.not_isReference hr
  · exact hd hd'
  · exact h.ne_eof rfl

theorem Held.unaliased (h : v.Held n) : v.Unaliased :=
  fun _ hu => h.not_within hu

end Value

structure Store.Layered (σ : Store) : Prop where
  global : ∀ b ∈ (σ.frame 0).bindings, ¬ b.2.Bare
  direct : ∀ i, ∀ b ∈ (σ.frame i).bindings, ∀ u : Value, u.IsReference → u.Within b.2 →
    u = b.2 ∧ i ≠ 0
  backward : σ.Backward
  resolves : ∀ env name, σ.resolve env name ≠ .error .diverged
  assigns : ∀ env name, σ.slot env name ≠ .error .diverged

theorem State.mem_coreFrame {b : String × Value} (h : b ∈ coreFrame.bindings) :
    (∃ entry ∈ Builtin.core, ∃ index, b = (entry.1, .builtin entry.1 index)) ∨
      b = ("the-empty-stream", .list []) := by
  rcases List.mem_append.mp (Frame.mem_ofList h) with hcore | hempty
  · obtain ⟨⟨entry, index⟩, hmem, rfl⟩ := List.mem_map.mp hcore
    exact .inl ⟨entry, (List.mem_zipIdx hmem).2.2 ▸ List.getElem_mem _, index, rfl⟩
  · exact .inr (List.mem_singleton.mp hempty)

theorem State.mem_initial {i : Nat} {b : String × Value}
    (h : b ∈ (initial.store.frame i).bindings) :
    i = 0 ∧ ((∃ name index, b.2 = .builtin name index) ∨ b.2 = .list []) := by
  by_cases hi : i = 0
  · subst hi
    rcases mem_coreFrame h with ⟨entry, _, index, rfl⟩ | rfl
    · exact ⟨rfl, .inl ⟨_, _, rfl⟩⟩
    · exact ⟨rfl, .inr rfl⟩
  · have hempty : initial.store.frame i = {} :=
      Store.frame_of_size_le (Nat.one_le_iff_ne_zero.mpr hi)
    rw [hempty] at h
    cases h

namespace Discipline

variable {D : Discipline} {Code : Value → Prop} {s : State}

theorem replies_of_core (hL : D.Laws) {index : Nat} {b : Builtin}
    (h : (Builtin.core.map (·.2)).toArray[index]? = some b) : D.Replies b := by
  rw [List.getElem?_toArray] at h
  obtain ⟨entry, hmem, rfl⟩ := List.mem_map.mp (List.mem_of_getElem? h)
  exact replies_core hL entry hmem

theorem good_initial : (layers Code).Good .initial := by
  refine ⟨Nat.zero_lt_one, Env.below_scope Nat.zero_lt_one (fun _ h => nomatch h), ?_⟩
  rintro i - ⟨name, v⟩ hb
  refine ⟨trivial, .inl ?_⟩
  obtain ⟨-, ⟨name, index, rfl⟩ | rfl⟩ := State.mem_initial hb
  · exact ⟨.builtin _ _, fun ⟨_, _, _, h⟩ => nomatch h⟩
  · exact ⟨.list (fun _ h => nomatch h), fun ⟨_, _, _, h⟩ => nomatch h⟩

theorem Good.backward (hg : (layers Code).Good s) : s.store.Backward := by
  intro i name target env hmem
  rcases (hg.slots i trivial _ hmem).2 with ⟨h, _⟩ | ⟨_, h | ⟨_, _, heq, he, _⟩⟩
  · exact absurd ⟨target, env, rfl⟩ h.not_isReference
  · exact absurd ⟨target, env, rfl⟩ h.not_isReference
  · cases heq
    exact he

theorem Good.layered (hg : (layers Code).Good s) : s.store.Layered where
  global b hb := by
    rcases (hg.slots 0 trivial b hb).2 with ⟨h, hd⟩ | ⟨h, _⟩
    · exact h.not_bare hd
    · exact absurd rfl h
  direct i b hb u hu hw := by
    rcases (hg.slots i trivial b hb).2 with ⟨h, _⟩ | ⟨hi, h | ⟨name, env, heq, _, _⟩⟩
    · exact absurd hw (h.unaliased u hu)
    · exact absurd hw (h.unaliased u hu)
    · rw [heq] at hw ⊢
      cases hw
      exact ⟨rfl, hi⟩
  backward := hg.backward
  resolves := Store.resolve_ne_diverged hg.backward
  assigns := Store.slot_ne_diverged hg.backward

end Discipline

namespace Interpreter

def limited (maxDepth : Nat) : Interpreter where
  maxDepth := maxDepth

inductive Reached (i : Interpreter) : State → Prop where
  | initial : Reached i .initial
  | evaluate {s : State} {e : Value} (fuel : Nat) (h : Reached i s) (he : e.Readable) :
      Reached i (stateAfter (i.evalWithin fuel e .globals 0 s))

variable {m : Nat} {s : State} {e : Value}

theorem laws_readable : Discipline.reading.Laws :=
  Discipline.laws_layers id Value.readable_list_iff.mp

theorem governs_limited : Discipline.reading.Governs (limited m) where
  laws := laws_readable
  text_code := id
  hosts := Routine.hosts_core laws_readable Form.readable_condToIf
  binds _ _ := trivial
  replies := Discipline.replies_of_core laws_readable

theorem below_globals (hg : Discipline.reading.Good s) :
    Env.globals.Below s.store.frames.size :=
  Env.below_scope hg.live fun _ h => nomatch h

theorem Reached.good (h : (limited m).Reached s) : Discipline.reading.Good s := by
  induction h with
  | initial => exact Discipline.good_initial
  | evaluate fuel _ he ih =>
      exact (governs_limited.ends fuel ih he (below_globals ih)).after.good

structure SeesLayers (s : State) (r : Effect.Result Value) : Prop where
  before : s.store.Layered
  after : (stateAfter r).store.Layered
  value : ∀ v t, r = .ok v t → ¬ v.Bare ∧ v.Unaliased

theorem layered_of_reached (h : (limited m).Reached s) (he : e.Readable) (fuel : Nat) :
    s.store.Layered ∧
      (limited m).Throughout (fun _ _ _ => SeesLayers) fuel e .globals 0 s := by
  have hg := h.good
  refine ⟨hg.layered, throughout_of_governs governs_limited ?_ fuel hg he (below_globals hg)⟩
  intro e' env' depth' t r hgt _ _ hends
  refine ⟨hgt.layered, hends.after.good.layered, ?_⟩
  rintro v t' rfl
  exact ⟨hends.2.1.not_bare hends.2.2, hends.2.1.unaliased⟩

def aliasing : Value :=
  .list [.list [.symbol "lambda", .list [.list [.symbol "reference", .symbol "x"]],
    .list [.list [.symbol "lambda", .list [.list [.symbol "reference", .symbol "y"]],
      .list [.symbol "set!", .symbol "y", .number 1]], .symbol "x"]], .symbol "car"]

theorem readable_aliasing : aliasing.Readable := by
  simp [aliasing, Value.readable_list_iff, Value.Readable.symbol, Value.Readable.number]

theorem layered_aliasing :
    (limited 8).Reached .initial ∧ aliasing.Readable ∧
      (State.initial.store.Layered ∧
        (limited 8).Throughout (fun _ _ _ => SeesLayers) ample aliasing .globals 0 .initial) :=
  ⟨.initial, readable_aliasing, layered_of_reached .initial readable_aliasing ample⟩

end Interpreter

end PassingLisp
