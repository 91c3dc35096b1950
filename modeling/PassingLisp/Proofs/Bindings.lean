import PassingLisp.Store

namespace PassingLisp

namespace Frame

variable {name : String} {value : Value} {f : Frame}

theorem mem_of_find {l : List (String × Value)} (h : find name l = some value) :
    (name, value) ∈ l := by
  induction l with
  | nil => simp [find] at h
  | cons b rest ih =>
      by_cases hb : b.1 = name
      · simp only [find, hb, if_true, Option.some.injEq] at h
        simp [← hb, ← h]
      · simp only [find, hb, if_false] at h
        exact List.mem_cons_of_mem _ (ih h)

theorem mem_of_get? (h : f.get? name = some value) : (name, value) ∈ f.bindings :=
  mem_of_find h

theorem mem_put {b : String × Value} {l : List (String × Value)} (h : b ∈ put name value l) :
    b = (name, value) ∨ b ∈ l := by
  induction l with
  | nil => simpa [put] using h
  | cons b' rest ih =>
      by_cases hb : b'.1 = name
      · simp only [put, hb, if_true, List.mem_cons] at h
        exact h.imp_right (List.mem_cons_of_mem _)
      · simp only [put, hb, if_false, List.mem_cons] at h
        rcases h with rfl | h
        · exact .inr List.mem_cons_self
        · exact (ih h).imp_right (List.mem_cons_of_mem _)

theorem mem_insert {b : String × Value} (h : b ∈ (f.insert name value).bindings) :
    b = (name, value) ∨ b ∈ f.bindings :=
  mem_put h

theorem mem_erase {b : String × Value} (h : b ∈ (f.erase name).bindings) : b ∈ f.bindings :=
  (List.mem_filter.mp h).1

theorem mem_foldl_insert {bs : List (String × Value)} {b : String × Value}
    (h : b ∈ (bs.foldl (fun f b => f.insert b.1 b.2) f).bindings) : b ∈ f.bindings ∨ b ∈ bs := by
  induction bs generalizing f with
  | nil => exact .inl h
  | cons b' bs ih =>
      rcases ih h with hf | hbs
      · rcases mem_insert hf with rfl | hf
        · exact .inr List.mem_cons_self
        · exact .inl hf
      · exact .inr (List.mem_cons_of_mem _ hbs)

theorem mem_ofList {bs : List (String × Value)} {b : String × Value}
    (h : b ∈ (ofList bs).bindings) : b ∈ bs :=
  (mem_foldl_insert h).resolve_left (by simp)

end Frame

namespace Store

variable {σ : Store} {env : Env} {name : String} {value : Value} {i j : Nat}

theorem frame_of_size_le (h : σ.frames.size ≤ i) : σ.frame i = {} := by
  simp [frame, Array.getElem?_eq_none h]

theorem frame_update (change : Frame → Frame) :
    (σ.update i change).frame j = σ.frame j ∨
      j = i ∧ (σ.update i change).frame j = change (σ.frame j) := by
  by_cases hj : j = i
  · subst hj
    by_cases hlt : j < σ.frames.size
    · exact .inr ⟨rfl, σ.frame_update_self hlt change⟩
    · have hle : σ.frames.size ≤ j := Nat.le_of_not_lt hlt
      left
      rw [frame_of_size_le (by simpa using hle), frame_of_size_le hle]
  · exact .inl (σ.frame_update_of_ne hj change)

theorem frame_enter (parent : Env) (f : Frame) :
    (σ.enter parent f).2.frame j = if j = σ.frames.size then f else σ.frame j := by
  split
  · rename_i h
    exact h ▸ σ.frame_enter_new parent f
  · rename_i h
    simp [frame, enter, Array.getElem?_push, h]

@[simp] theorem size_enter (parent : Env) (f : Frame) :
    (σ.enter parent f).2.frames.size = σ.frames.size + 1 := by
  simp [enter]

theorem exists_frame_of_get? (h : σ.get? env name = some value) :
    ∃ i ∈ env.frames, (σ.frame i).get? name = some value := by
  induction env with
  | empty => simp [get?] at h
  | scope link frame parent ih =>
      rw [get?] at h
      cases hf : (σ.frame frame).get? name with
      | some v =>
          simp only [hf] at h
          exact ⟨frame, by simp [Env.frames], hf.trans h⟩
      | none =>
          simp only [hf] at h
          obtain ⟨i, hi, hg⟩ := ih h
          exact ⟨i, by simp [Env.frames, hi], hg⟩

theorem binds_of_holder? (h : σ.holder? env name = some i) :
    i ∈ env.frames ∧ (σ.frame i).binds name = true := by
  induction env with
  | empty => simp [holder?] at h
  | scope link frame parent ih =>
      rw [holder?] at h
      split at h
      · cases h
        exact ⟨by simp [Env.frames], by assumption⟩
      · obtain ⟨hi, hb⟩ := ih h
        exact ⟨by simp [Env.frames, hi], hb⟩

end Store

end PassingLisp
