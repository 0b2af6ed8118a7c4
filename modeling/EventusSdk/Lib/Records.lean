import Mathlib.Data.List.Nodup

/-!
# Records by keyword

A record class has named fields with defaults, and is called with keywords: a keyword that names no field is refused,
and a field that is not given has its default.  In a union of such classes each class has a tag of its own.  The main
fact says which keywords a class is to be called with for the call to return a given record: those that describe it.
-/

/-- In an association list without repeated keys every entry is found. -/
private theorem lookup_of_nodup {V : Type} {l : List (String × V)} (hnodup : (l.map Prod.fst).Nodup) {f : String × V}
    (h : f ∈ l) : l.lookup f.1 = some f.2 := by
  obtain ⟨l₁, l₂, rfl⟩ := List.append_of_mem h
  refine List.lookup_eq_some_iff.2 ⟨l₁, l₂, rfl, fun g hg => ?_⟩
  rw [List.map_append, List.map_cons, List.nodup_append] at hnodup
  simpa using fun h => hnodup.2.2 g.1 (List.mem_map_of_mem hg) f.1 (List.mem_cons_self ..) h.symm

/-- A class of records in `α`: its fields with their defaults, and the record for given arguments. -/
structure RecordClass (V α : Type) where
  fields : List (String × V)
  make : (String → V) → α
  nodup : (fields.map Prod.fst).Nodup
  make_congr : ∀ arg arg', (∀ f ∈ fields, arg f.1 = arg' f.1) → make arg = make arg'

namespace RecordClass

variable {V α : Type} (c : RecordClass V α) {given : List (String × V)} {a : α}

private theorem lookup_field {f : String × V} (h : f ∈ c.fields) :
    c.fields.lookup f.1 = some f.2 := lookup_of_nodup c.nodup h

variable [Inhabited V]

/-- What is given for a field, else its default. -/
def argument (given : List (String × V)) (name : String) : V :=
  (given.lookup name).getD ((c.fields.lookup name).getD default)

/-- `cls(**given)`. -/
def call (given : List (String × V)) : Option α :=
  if given.all fun m => (c.fields.map Prod.fst).contains m.1 then some (c.make (c.argument given)) else none

private theorem call_eq_some :
    c.call given = some a ↔ (∀ m ∈ given, m.1 ∈ c.fields.map Prod.fst) ∧ c.make (c.argument given) = a := by
  simp [call, List.all_eq_true, -List.mem_map]

private theorem argument_eq {f : String × V} (h : f ∈ c.fields) {v : V} :
    c.argument given f.1 = v ↔ given.lookup f.1 = some v ∨ given.lookup f.1 = none ∧ f.2 = v := by
  rw [argument, c.lookup_field h]
  cases given.lookup f.1 <;> simp

end RecordClass

/-- A union of record classes, each under its tag, with the fields that make up a record. -/
structure RecordUnion (V α : Type) where
  classes : List (String × RecordClass V α)
  cls : α → RecordClass V α
  tag : α → String
  asdict : α → List (String × V)
  lookup_tag : ∀ a, classes.lookup (tag a) = some (cls a)
  make_arguments : ∀ a, ∃ arg, (cls a).make arg = a
  of_make : ∀ x ∈ classes, ∀ arg,
    tag (x.2.make arg) = x.1 ∧ asdict (x.2.make arg) = x.2.fields.map fun f => (f.1, arg f.1)

/-- The keywords name fields only; each field is given, or left out and has its default. -/
structure Describes {V : Type} (defaults fields given : List (String × V)) : Prop where
  names : ∀ m ∈ given, m.1 ∈ defaults.map Prod.fst
  values : ∀ f ∈ fields, given.lookup f.1 = some f.2 ∨ given.lookup f.1 = none ∧ f ∈ defaults

namespace RecordUnion

variable {V α : Type} (u : RecordUnion V α) {given : List (String × V)} {a : α} {tag : String}

private theorem mem_classes (a : α) : (u.tag a, u.cls a) ∈ u.classes := by
  obtain ⟨l₁, l₂, heq, -⟩ := List.lookup_eq_some_iff.1 (u.lookup_tag a)
  rw [heq]
  simp

theorem asdict_names (a : α) : (u.asdict a).map Prod.fst = (u.cls a).fields.map Prod.fst := by
  obtain ⟨arg, harg⟩ := u.make_arguments a
  obtain ⟨-, hdict⟩ := u.of_make _ (u.mem_classes a) arg
  rw [harg] at hdict
  rw [hdict, List.map_map]
  rfl

theorem lookup_asdict {f : String × V} (h : f ∈ u.asdict a) : (u.asdict a).lookup f.1 = some f.2 :=
  lookup_of_nodup (u.asdict_names a ▸ (u.cls a).nodup) h

/-- The fields of a record describe it. -/
theorem describes_asdict (a : α) : Describes (u.cls a).fields (u.asdict a) (u.asdict a) where
  names := fun _ hm => u.asdict_names a ▸ List.mem_map_of_mem hm
  values := fun _ hf => Or.inl (u.lookup_asdict hf)

/-- Calling the class with a tag gives a record if and only if it is the tag of the record, and the keywords describe
the record. -/
theorem call_iff [Inhabited V] :
    (∃ c, u.classes.lookup tag = some c ∧ c.call given = some a) ↔
      u.tag a = tag ∧ Describes (u.cls a).fields (u.asdict a) given := by
  constructor
  · rintro ⟨c, hc, h⟩
    obtain ⟨hnames, rfl⟩ := c.call_eq_some.1 h
    obtain ⟨l₁, l₂, heq, -⟩ := List.lookup_eq_some_iff.1 hc
    have hmem : (tag, c) ∈ u.classes := heq ▸ by simp
    obtain ⟨htag, hdict⟩ := u.of_make _ hmem (c.argument given)
    have hcls : u.cls (c.make (c.argument given)) = c := by
      have := u.lookup_tag (c.make (c.argument given))
      rw [htag, hc] at this
      exact (Option.some.inj this).symm
    rw [hcls, hdict]
    refine ⟨htag, hnames, fun f hf => ?_⟩
    obtain ⟨g, hg, rfl⟩ := List.mem_map.1 hf
    rcases (c.argument_eq hg).1 rfl with h | ⟨h, hdefault⟩
    · exact Or.inl h
    · exact Or.inr ⟨h, hdefault ▸ hg⟩
  · rintro ⟨rfl, hd⟩
    obtain ⟨arg, harg⟩ := u.make_arguments a
    obtain ⟨-, hdict⟩ := u.of_make _ (u.mem_classes a) arg
    rw [harg] at hdict
    refine ⟨u.cls a, u.lookup_tag a, (u.cls a).call_eq_some.2 ⟨hd.names, ?_⟩⟩
    -- each argument is given, or left out and the default
    have hargs : ∀ f ∈ (u.cls a).fields, (u.cls a).argument given f.1 = arg f.1 := by
      intro f hf
      have hmem : (f.1, arg f.1) ∈ u.asdict a := hdict ▸ List.mem_map_of_mem hf
      refine ((u.cls a).argument_eq hf).2 ((hd.values _ hmem).imp_right fun ⟨hnone, hdefault⟩ => ⟨hnone, ?_⟩)
      exact Option.some.inj (((u.cls a).lookup_field hf).symm.trans ((u.cls a).lookup_field hdefault))
    exact ((u.cls a).make_congr _ _ hargs).trans harg

end RecordUnion
