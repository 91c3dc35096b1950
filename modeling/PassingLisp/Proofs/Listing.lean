import PassingLisp.Proofs.Changes

namespace PassingLisp

namespace Frame

variable {name : String} {v : Value} {l bs : List (String × Value)}

theorem find_eq_some_iff (h : (l.map (·.1)).Nodup) : find name l = some v ↔ (name, v) ∈ l := by
  refine ⟨mem_of_find, fun hmem => ?_⟩
  induction l with
  | nil => cases hmem
  | cons b rest ih =>
      rw [List.map_cons, List.nodup_cons] at h
      rcases List.mem_cons.mp hmem with rfl | hmem
      · exact if_pos rfl
      · have hne : b.1 ≠ name := fun heq => h.1 (heq ▸ List.mem_map_of_mem hmem)
        rw [find, if_neg hne]
        exact ih h.2 hmem

theorem find_foldl_put (h : (bs.map (·.1)).Nodup) (name : String) (seen : List (String × Value)) :
    find name (bs.foldl (fun seen b => put b.1 b.2 seen) seen) =
      (find name bs).or (find name seen) := by
  induction bs generalizing seen with
  | nil => rfl
  | cons b bs ih =>
      rw [List.map_cons, List.nodup_cons] at h
      obtain ⟨hb, hbs⟩ := h
      rw [List.foldl_cons, ih hbs, find]
      by_cases hname : b.1 = name
      · subst hname
        have hnone : find b.1 bs = none := by
          rw [← Option.not_isSome_iff_eq_none, find_isSome_iff]
          exact hb
        simp [hnone, find_put_self]
      · simp [hname, find_put_of_ne (Ne.symm hname)]

end Frame

namespace Store

variable {σ : Store} {env : Env} {name : String} {v : Value}

theorem visible_scope (link : Link) (i : Nat) (parent : Env) :
    σ.visible (.scope link i parent) =
      (σ.frame i).bindings.foldl (fun seen b => Frame.put b.1 b.2 seen) (σ.visible parent) := by
  simp only [visible, Env.frames, List.reverse_cons, List.flatMap_append, List.flatMap_cons,
    List.flatMap_nil, List.append_nil, List.foldl_append]

theorem visible_eq (env : Env) : σ.visible env =
    (Frame.ofList (env.frames.reverse.flatMap fun i => (σ.frame i).bindings)).bindings :=
  List.foldl_hom Frame.bindings fun _ _ => rfl

theorem nodup_visible (env : Env) : ((σ.visible env).map (·.1)).Nodup := by
  rw [visible_eq]
  exact Frame.nodup_names_ofList _

theorem find_visible (h : σ.Keyed) (env : Env) (name : String) :
    Frame.find name (σ.visible env) = σ.get? env name := by
  induction env with
  | empty => rfl
  | scope link i parent ih =>
      rw [visible_scope, Frame.find_foldl_put (h i), ih, get?, Frame.get?]
      cases Frame.find name (σ.frame i).bindings <;> rfl

theorem listing_perm (env : Env) : (σ.listing env).Perm (σ.visible env) :=
  List.mergeSort_perm _ _

theorem sorted_listing (env : Env) : (σ.listing env).Pairwise fun a b => a.1 ≤ b.1 := by
  have htrans (a b c : String × Value) (hab : decide (a.1 ≤ b.1) = true)
      (hbc : decide (b.1 ≤ c.1) = true) : decide (a.1 ≤ c.1) = true := by
    rw [decide_eq_true_iff] at *
    exact String.le_trans hab hbc
  have htotal (a b : String × Value) : (decide (a.1 ≤ b.1) || decide (b.1 ≤ a.1)) = true := by
    rw [Bool.or_eq_true, decide_eq_true_iff, decide_eq_true_iff]
    exact String.le_total a.1 b.1
  exact (List.pairwise_mergeSort htrans htotal (σ.visible env)).imp of_decide_eq_true

theorem nodup_listing (env : Env) : ((σ.listing env).map (·.1)).Nodup :=
  ((listing_perm env).map _).nodup_iff.mpr (nodup_visible env)

theorem mem_listing_iff (h : σ.Keyed) : (name, v) ∈ σ.listing env ↔ σ.get? env name = some v := by
  rw [(listing_perm env).mem_iff, ← Frame.find_eq_some_iff (nodup_visible env), find_visible h]

structure ListsWhatIsFound (σ : Store) (env : Env) : Prop where
  increasing : (σ.listing env).Pairwise fun a b => a.1 < b.1
  mem_iff (name : String) (v : Value) : (name, v) ∈ σ.listing env ↔ σ.get? env name = some v
  name_mem_iff (name : String) :
    name ∈ (σ.listing env).map (·.1) ↔ σ.isDefined env name = true

theorem listsWhatIsFound (h : σ.Keyed) (env : Env) : σ.ListsWhatIsFound env where
  increasing := by
    have hdiffer : (σ.listing env).Pairwise fun a b => a.1 ≠ b.1 :=
      List.pairwise_map.mp (nodup_listing env)
    refine ((sorted_listing env).and hdiffer).imp fun {a b} ⟨hle, hne⟩ => ?_
    exact String.not_le.mp fun hge => hne (String.le_antisymm hle hge)
  mem_iff name v := mem_listing_iff h
  name_mem_iff name := by
    rw [isDefined_eq_isSome_get?, Option.isSome_iff_exists]
    constructor
    · intro hmem
      obtain ⟨⟨_, v⟩, hv, rfl⟩ := List.mem_map.mp hmem
      exact ⟨v, (mem_listing_iff h).mp hv⟩
    · rintro ⟨v, hv⟩
      exact List.mem_map.mpr ⟨(name, v), (mem_listing_iff h).mpr hv, rfl⟩

def shadowing : Store where
  frames := #[⟨[("y", .number 1), ("x", .number 2)]⟩, ⟨[("x", .number 3), ("é", .number 4)]⟩]

def shadowingScope : Env :=
  .scope .dynamic 1 (.scope .lexical 0 (.scope .lexical 1 .empty))

theorem listsWhatIsFound_shadowing :
    shadowing.Keyed ∧
      shadowing.listing shadowingScope =
        [("x", .number 3), ("y", .number 1), ("é", .number 4)] ∧
      shadowing.ListsWhatIsFound shadowingScope := by
  have hkeyed : shadowing.Keyed := keyed_of_frames (by decide)
  have hvisible : shadowing.visible shadowingScope =
      [("x", .number 3), ("é", .number 4), ("y", .number 1)] := by rfl
  have hlisting : shadowing.listing shadowingScope =
      [("x", .number 3), ("y", .number 1), ("é", .number 4)] := by
    simp [listing, hvisible, List.mergeSort]
  exact ⟨hkeyed, hlisting, listsWhatIsFound hkeyed shadowingScope⟩

end Store

end PassingLisp
