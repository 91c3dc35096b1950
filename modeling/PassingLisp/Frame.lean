import PassingLisp.Value

namespace PassingLisp

structure Frame where
  bindings : List (String × Value) := []
  deriving Inhabited

namespace Frame

def put (name : String) (value : Value) : List (String × Value) → List (String × Value)
  | [] => [(name, value)]
  | b :: rest => if b.1 = name then (name, value) :: rest else b :: put name value rest

def find (name : String) : List (String × Value) → Option Value
  | [] => none
  | b :: rest => if b.1 = name then some b.2 else find name rest

def get? (f : Frame) (name : String) : Option Value :=
  find name f.bindings

def binds (f : Frame) (name : String) : Bool :=
  (f.get? name).isSome

def insert (f : Frame) (name : String) (value : Value) : Frame :=
  ⟨put name value f.bindings⟩

def erase (f : Frame) (name : String) : Frame :=
  ⟨f.bindings.filter (·.1 ≠ name)⟩

def names (f : Frame) : List String :=
  f.bindings.map (·.1)

def ofList (bindings : List (String × Value)) : Frame :=
  bindings.foldl (fun f b => f.insert b.1 b.2) {}

variable (f : Frame) {name other : String} {value : Value}

theorem find_put_self (l : List (String × Value)) : find name (put name value l) = some value := by
  induction l with
  | nil => simp [put, find]
  | cons b rest ih => by_cases h : b.1 = name <;> simp [put, find, h, ih]

theorem find_put_of_ne (h : other ≠ name) (l : List (String × Value)) :
    find other (put name value l) = find other l := by
  induction l with
  | nil => simp [put, find, h.symm]
  | cons b rest ih =>
      by_cases hb : b.1 = name
      · simp [put, find, hb, h.symm]
      · simp [put, find, hb, ih]

theorem find_filter_self (l : List (String × Value)) :
    find name (l.filter (·.1 ≠ name)) = none := by
  induction l with
  | nil => rfl
  | cons b rest ih => by_cases h : b.1 = name <;> simp_all [find]

theorem find_filter_of_ne (h : other ≠ name) (l : List (String × Value)) :
    find other (l.filter (·.1 ≠ name)) = find other l := by
  induction l with
  | nil => rfl
  | cons b rest ih =>
      by_cases hb : b.1 = name
      · simp_all [find, h.symm]
      · simp_all [find]

@[simp] theorem get?_insert_self : (f.insert name value).get? name = some value :=
  find_put_self _

theorem get?_insert_of_ne (h : other ≠ name) : (f.insert name value).get? other = f.get? other :=
  find_put_of_ne h _

@[simp] theorem get?_erase_self : (f.erase name).get? name = none :=
  find_filter_self _

theorem get?_erase_of_ne (h : other ≠ name) : (f.erase name).get? other = f.get? other :=
  find_filter_of_ne h _

theorem find_isSome_iff {l : List (String × Value)} :
    (find name l).isSome = true ↔ name ∈ l.map (·.1) := by
  induction l with
  | nil => simp [find]
  | cons b rest ih =>
      by_cases h : b.1 = name
      · simp [find, h]
      · simp [find, h, ih, Ne.symm h]

theorem binds_iff : f.binds name = true ↔ name ∈ f.names :=
  find_isSome_iff

theorem names_insert_of_binds (h : f.binds name = true) :
    (f.insert name value).names = f.names := by
  obtain ⟨l⟩ := f
  simp only [names, insert, binds, get?] at *
  induction l with
  | nil => simp [find] at h
  | cons b rest ih =>
      by_cases hb : b.1 = name
      · simp [put, hb]
      · simp only [find, hb, if_false] at h
        simp only [put, hb, if_false, List.map_cons, ih h]

theorem names_insert_of_not_binds (h : f.binds name = false) :
    (f.insert name value).names = f.names ++ [name] := by
  obtain ⟨l⟩ := f
  simp only [names, insert, binds, get?] at *
  induction l with
  | nil => simp [put]
  | cons b rest ih =>
      by_cases hb : b.1 = name
      · simp [find, hb] at h
      · simp only [find, hb, if_false] at h
        simp only [put, hb, if_false, List.map_cons, List.cons_append, ih h]

theorem names_erase : (f.erase name).names = f.names.filter (· ≠ name) := by
  simp [names, erase, List.filter_map, Function.comp_def]

end Frame

end PassingLisp
