import PassingLisp.Proofs.Calls
import PassingLisp.Proofs.Naming
import PassingLisp.Proofs.Reachable

namespace PassingLisp

open Discipline

inductive Command where
  | install (name : String) (handler : Handler)
  | register (name : String) (b : Builtin)
  | evaluate (fuel : Nat) (e : Value)

namespace Session

def perform (t : Session) : Command → Option Error × Session
  | .install name handler =>
      match t.interpreter.install name handler t.state.store with
      | .ok i => (none, { t with interpreter := i })
      | .error e => (some e, t)
  | .register name b =>
      match t.interpreter.register name b t.state.store with
      | .ok (i, σ) => (none, { t with interpreter := i, state := { t.state with store := σ } })
      | .error e => (some e, t)
  | .evaluate fuel e =>
      (none, { t with state := stateAfter (t.interpreter.evalWithin fuel e .globals 0 t.state) })

def run (t : Session) (commands : List Command) : Session :=
  commands.foldl (fun t c => (t.perform c).2) t

def limited (maxDepth : Nat) : Session where
  interpreter := .limited maxDepth

end Session

namespace Command

/-- A handler from outside defines only names that it found to be no forms, whatever the forms
are. -/
def DefinesNoForm : Command → Prop
  | install _ handler => ∀ isForm, (clearGlobals isForm).Hosts handler
  | register .. | evaluate .. => True

/-- Nor does a procedure with the name of a form among its parameters come from outside. -/
def PassesNoForm : Command → Prop
  | install _ handler => ∀ isForm, (clearFrames isForm).Hosts handler
  | register _ b => ∀ isForm, (clearFrames isForm).Replies b
  | evaluate _ e => e.Readable

def IsInstall (c : Command) : Prop :=
  ∃ name handler, c = install name handler

def IsEvaluation (c : Command) : Prop :=
  ∃ fuel e, c = evaluate fuel e

end Command

namespace FormTable

variable {forms : FormTable} {name other : String} {handler : Handler} {σ : Store}

theorem contains_append :
    (⟨forms.entries ++ [(name, handler)]⟩ : FormTable).contains other =
      (forms.contains other || other == name) := by
  simp only [contains, find?, List.lookup_append, List.lookup_cons, Option.isSome_or]
  cases other == name <;> rfl

theorem isDefined_globals : σ.isDefined .globals name = (σ.frame 0).binds name := by
  simp [Store.isDefined, Env.globals, Env.frames]

theorem install_cases (forms : FormTable) (name : String) (handler : Handler) (σ : Store) :
    (forms.contains name = false ∧ (σ.frame 0).binds name = false ∧
        forms.install name handler σ .globals = .ok ⟨forms.entries ++ [(name, handler)]⟩) ∨
      (forms.contains name = true ∨ (σ.frame 0).binds name = true) ∧
        forms.install name handler σ .globals = .error (.formConflict name) := by
  unfold install
  rw [isDefined_globals]
  cases forms.contains name with
  | true => exact .inr ⟨.inl rfl, rfl⟩
  | false =>
      cases (σ.frame 0).binds name with
      | true => exact .inr ⟨.inr rfl, rfl⟩
      | false => exact .inl ⟨rfl, rfl, rfl⟩

end FormTable

def Store.Apart (σ : Store) (forms : FormTable) (i : Nat) : Prop :=
  ∀ name, forms.contains name = true → (σ.frame i).binds name = false

namespace Discipline

variable {forms : FormTable} {s : State} {i : Nat}

end Discipline

namespace Session

variable {t : Session} {name : String} {handler : Handler} {b : Builtin} {c : Command}
  {commands : List Command}

def installed (t : Session) (name : String) (handler : Handler) : Session where
  interpreter := { t.interpreter with forms := ⟨t.interpreter.forms.entries ++ [(name, handler)]⟩ }
  state := t.state
  comments := t.comments

def registered (t : Session) (name : String) (b : Builtin) : Session where
  interpreter := { t.interpreter with builtins := t.interpreter.builtins.push b }
  state :=
    let v := .builtin name t.interpreter.builtins.size
    { t.state with store := t.state.store.update 0 (·.insert name v) }
  comments := t.comments

def evaluated (t : Session) (fuel : Nat) (e : Value) : Session where
  interpreter := t.interpreter
  state := stateAfter (t.interpreter.evalWithin fuel e .globals 0 t.state)
  comments := t.comments

theorem perform_install (t : Session) (name : String) (handler : Handler) :
    (t.interpreter.forms.contains name = false ∧ (t.state.store.frame 0).binds name = false ∧
        t.perform (.install name handler) = (none, t.installed name handler)) ∨
      (t.interpreter.forms.contains name = true ∨ (t.state.store.frame 0).binds name = true) ∧
        t.perform (.install name handler) = (some (.formConflict name), t) := by
  rcases t.interpreter.forms.install_cases name handler t.state.store with
    ⟨hc, hb, h⟩ | ⟨hcb, h⟩
  · refine .inl ⟨hc, hb, ?_⟩
    simp only [perform, Interpreter.install, h, installed]
  · refine .inr ⟨hcb, ?_⟩
    simp only [perform, Interpreter.install, h]

theorem perform_register (t : Session) (name : String) (b : Builtin) :
    (t.interpreter.forms.contains name = false ∧
        t.perform (.register name b) = (none, t.registered name b)) ∨
      t.interpreter.forms.contains name = true ∧
        t.perform (.register name b) = (some (.formConflict name), t) := by
  cases hc : t.interpreter.forms.contains name with
  | true =>
      refine .inr ⟨rfl, ?_⟩
      simp only [perform, Interpreter.register, hc, if_true]
  | false =>
      refine .inl ⟨rfl, ?_⟩
      simp only [perform, Interpreter.register, hc]
      rfl

theorem perform_cases (t : Session) (c : Command) :
    (t.perform c).2 = t ∨
      (∃ name handler, c = .install name handler ∧ (t.state.store.frame 0).binds name = false ∧
        (t.perform c).2 = t.installed name handler) ∨
      (∃ name b, c = .register name b ∧ t.interpreter.forms.contains name = false ∧
        (t.perform c).2 = t.registered name b) ∨
      ∃ fuel e, c = .evaluate fuel e ∧ (t.perform c).2 = t.evaluated fuel e := by
  cases c with
  | install name handler =>
      rcases t.perform_install name handler with ⟨_, hb, hp⟩ | ⟨_, hp⟩
      · exact .inr (.inl ⟨name, handler, rfl, hb, congrArg Prod.snd hp⟩)
      · exact .inl (congrArg Prod.snd hp)
  | register name b =>
      rcases t.perform_register name b with ⟨hname, hp⟩ | ⟨_, hp⟩
      · exact .inr (.inr (.inl ⟨name, b, rfl, hname, congrArg Prod.snd hp⟩))
      · exact .inl (congrArg Prod.snd hp)
  | evaluate fuel e => exact .inr (.inr (.inr ⟨fuel, e, rfl, rfl⟩))

theorem ne_of_mem_bindings {f : Frame} {binding : String × Value} (hmem : binding ∈ f.bindings)
    (hb : f.binds name = false) : binding.1 ≠ name := by
  rintro rfl
  have hbound := f.binds_iff.mpr (List.mem_map_of_mem hmem)
  rw [hb] at hbound
  cases hbound

theorem contains_installed {other : String} (h : t.interpreter.forms.contains other = false)
    (hne : other ≠ name) :
    (t.installed name handler).interpreter.forms.contains other = false := by
  simp only [installed, FormTable.contains_append, h, Bool.false_or]
  exact beq_false_of_ne hne

theorem mem_bindings_registered {i : Nat} {binding : String × Value}
    (h : binding ∈ ((t.registered name b).state.store.frame i).bindings) :
    (i = 0 ∧ binding = (name, .builtin name t.interpreter.builtins.size)) ∨
      binding ∈ (t.state.store.frame i).bindings := by
  rcases t.state.store.frame_update _ (i := 0) (j := i) with heq | ⟨rfl, heq⟩
  · exact .inr (heq ▸ h)
  · rcases Frame.mem_insert (heq ▸ h) with hnew | hold
    · exact .inl ⟨rfl, hnew⟩
    · exact .inr hold

structure Sound (t : Session) : Prop where
  forms : ∀ entry ∈ t.interpreter.forms.entries,
    entry ∈ FormTable.core.entries ∨ ∀ isForm, (clearGlobals isForm).Hosts entry.2
  good : (clearGlobals t.interpreter.forms.contains).Good t.state

theorem Sound.governs (h : t.Sound) :
    (clearGlobals t.interpreter.forms.contains).Governs t.interpreter where
  laws := laws_clearGlobals
  text_code := id
  hosts entry hmem := by
    rcases h.forms entry hmem with hcore | hhost
    · exact Routine.hosts_core laws_clearGlobals (fun _ _ => trivial) entry hcore
    · exact hhost _
  binds hname _ _ := hname
  replies {_ b} _ := by
    intro n args _
    cases (b.call args).result <;> trivial

theorem Sound.installed (h : t.Sound) (hb : (t.state.store.frame 0).binds name = false)
    (hh : ∀ isForm, (clearGlobals isForm).Hosts handler) : (t.installed name handler).Sound where
  forms entry hmem := by
    rcases List.mem_append.mp hmem with hold | hnew
    · exact h.forms entry hold
    · rw [List.mem_singleton.mp hnew]
      exact .inr hh
  good := by
    refine ⟨h.good.live, h.good.stack, fun i _ binding hmem => ⟨fun hi => ?_, trivial⟩⟩
    subst hi
    have hold := (h.good.slots 0 trivial binding hmem).1 rfl
    exact contains_installed hold (ne_of_mem_bindings hmem hb)

theorem Sound.registered (h : t.Sound) (hname : t.interpreter.forms.contains name = false)
    (b : Builtin) : (t.registered name b).Sound where
  forms := h.forms
  good := (h.good.insert laws_clearGlobals trivial (fun _ => hname) trivial).good

theorem Sound.evaluated (h : t.Sound) (fuel : Nat) (e : Value) : (t.evaluated fuel e).Sound where
  forms := h.forms
  good := (h.governs.ends fuel h.good trivial trivial).after.good

theorem Sound.perform (h : t.Sound) (hc : c.DefinesNoForm) : (t.perform c).2.Sound := by
  rcases t.perform_cases c with hp | ⟨name, handler, rfl, hb, hp⟩ | ⟨name, b, rfl, hname, hp⟩ |
    ⟨fuel, e, rfl, hp⟩
  · rw [hp]
    exact h
  · rw [hp]
    exact h.installed hb hc
  · rw [hp]
    exact h.registered hname b
  · rw [hp]
    exact h.evaluated fuel e

structure Furnished (t : Session) : Prop where
  forms : ∀ entry ∈ t.interpreter.forms.entries,
    entry ∈ FormTable.core.entries ∨ ∀ isForm, (clearFrames isForm).Hosts entry.2
  builtins : ∀ (index : Nat) (b : Builtin), t.interpreter.builtins[index]? = some b →
    ∀ isForm, (clearFrames isForm).Replies b

theorem Furnished.installed (h : t.Furnished)
    (hh : ∀ isForm, (clearFrames isForm).Hosts handler) :
    (t.installed name handler).Furnished where
  forms entry hmem := by
    rcases List.mem_append.mp hmem with hold | hnew
    · exact h.forms entry hold
    · rw [List.mem_singleton.mp hnew]
      exact .inr hh
  builtins := h.builtins

theorem Furnished.registered (h : t.Furnished) (hb : ∀ isForm, (clearFrames isForm).Replies b)
    (name : String) : (t.registered name b).Furnished where
  forms := h.forms
  builtins index b' hget := by
    simp only [Session.registered, Array.getElem?_push] at hget
    split at hget
    · cases hget
      exact hb
    · exact h.builtins index b' hget

structure Pristine (t : Session) : Prop extends t.Furnished where
  slots : ∀ i, ∀ binding ∈ (t.state.store.frame i).bindings,
    i = 0 ∧ t.interpreter.forms.contains binding.1 = false ∧ ∀ isForm, binding.2.Apart isForm

theorem Pristine.installed (h : t.Pristine) (hb : (t.state.store.frame 0).binds name = false)
    (hh : ∀ isForm, (clearFrames isForm).Hosts handler) :
    (t.installed name handler).Pristine where
  toFurnished := h.toFurnished.installed hh
  slots i binding hmem := by
    obtain ⟨rfl, hold, hapart⟩ := h.slots i binding hmem
    exact ⟨rfl, contains_installed hold (ne_of_mem_bindings hmem hb), hapart⟩

theorem Pristine.registered (h : t.Pristine) (hname : t.interpreter.forms.contains name = false)
    (hb : ∀ isForm, (clearFrames isForm).Replies b) : (t.registered name b).Pristine where
  toFurnished := h.toFurnished.registered hb name
  slots i binding hmem := by
    rcases mem_bindings_registered hmem with ⟨hi, rfl⟩ | hold
    · exact ⟨hi, hname, fun _ => Value.apart_builtin⟩
    · exact h.slots i binding hold

theorem Pristine.perform (h : t.Pristine) (hc : c.PassesNoForm ∧ ¬ c.IsEvaluation) :
    (t.perform c).2.Pristine := by
  obtain ⟨hc, he⟩ := hc
  rcases t.perform_cases c with hp | ⟨name, handler, rfl, hb, hp⟩ | ⟨name, b, rfl, hname, hp⟩ |
    ⟨fuel, e, rfl, -⟩
  · rw [hp]
    exact h
  · rw [hp]
    exact h.installed hb hc
  · rw [hp]
    exact h.registered hname hc
  · exact absurd ⟨fuel, e, rfl⟩ he

structure Clean (t : Session) : Prop extends t.Furnished where
  good : (clearFrames t.interpreter.forms.contains).Good t.state

theorem Clean.governs (h : t.Clean) :
    (clearFrames t.interpreter.forms.contains).Governs t.interpreter where
  laws := laws_clearFrames
  text_code := id
  hosts entry hmem := by
    rcases h.forms entry hmem with hcore | hhost
    · exact Routine.hosts_core laws_clearFrames expands_clearFrames entry hcore
    · exact hhost _
  binds hname _ := hname
  replies hget := h.builtins _ _ hget _

theorem Clean.registered (h : t.Clean) (hname : t.interpreter.forms.contains name = false)
    (hb : ∀ isForm, (clearFrames isForm).Replies b) : (t.registered name b).Clean where
  toFurnished := h.toFurnished.registered hb name
  good := (h.good.insert laws_clearFrames trivial hname Value.apart_builtin).good

theorem Clean.evaluated {e : Value} (h : t.Clean) (fuel : Nat) (he : e.Readable) :
    (t.evaluated fuel e).Clean where
  forms := h.forms
  builtins := h.builtins
  good := (h.governs.ends fuel h.good he.apart trivial).after.good

theorem Clean.perform (h : t.Clean) (hc : c.PassesNoForm ∧ ¬ c.IsInstall) :
    (t.perform c).2.Clean := by
  obtain ⟨hc, hi⟩ := hc
  rcases t.perform_cases c with hp | ⟨name, handler, rfl, -⟩ | ⟨name, b, rfl, hname, hp⟩ |
    ⟨fuel, e, rfl, hp⟩
  · rw [hp]
    exact h
  · exact absurd ⟨name, handler, rfl⟩ hi
  · rw [hp]
    exact h.registered hname hc
  · rw [hp]
    exact h.evaluated fuel hc

end Session

end PassingLisp
