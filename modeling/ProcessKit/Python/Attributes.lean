import Mathlib.Data.List.Basic

/-!
# Instances, their classes and their attributes

An attribute is looked for in the instance first and then in its classes, in the order that the
class's resolution gives. An instance is of every class of that order.
-/

namespace Python

/-- A family of classes: the resolution order of each and its own attributes. -/
structure Classes (γ ν : Type) where
  mro : γ → List γ
  dict : γ → List (String × ν)

structure Instance (γ ν : Type) where
  cls : γ
  dict : List (String × ν)

variable {γ ν : Type} {classes : Classes γ ν} {obj : Instance γ ν}

namespace Instance

def setattr (obj : Instance γ ν) (name : String) (value : ν) : Instance γ ν :=
  { obj with dict := (name, value) :: obj.dict }

/-- `if let Some(value) = … { setattr }`. -/
def setattrIf (obj : Instance γ ν) (name : String) (value : Option ν) : Instance γ ν :=
  value.elim obj (obj.setattr name)

@[simp] theorem setattr_cls : (obj.setattr name value).cls = obj.cls := rfl

@[simp] theorem setattrIf_cls : (obj.setattrIf name value).cls = obj.cls := by
  cases value <;> rfl

def attach (obj : Instance γ ν) (fields : List (String × Option ν)) : Instance γ ν :=
  fields.foldl (fun obj field => obj.setattrIf field.1 field.2) obj

@[simp] theorem attach_cons :
    obj.attach (field :: fields) = (obj.setattrIf field.1 field.2).attach fields := rfl

@[simp] theorem attach_cls : (obj.attach fields).cls = obj.cls := by
  induction fields generalizing obj with
  | nil => rfl
  | cons field fields ih => simp [ih]

end Instance

namespace Classes

def isinstance [DecidableEq γ] (classes : Classes γ ν) (obj : Instance γ ν) (cls : γ) : Bool :=
  cls ∈ classes.mro obj.cls

def classattr (classes : Classes γ ν) (cls : γ) (name : String) : Option ν :=
  (classes.mro cls).findSome? fun c => (classes.dict c).lookup name

def getattr (classes : Classes γ ν) (obj : Instance γ ν) (name : String) : Option ν :=
  (obj.dict.lookup name).or (classes.classattr obj.cls name)

@[simp] theorem getattr_new (cls : γ) (name : String) :
    classes.getattr ⟨cls, []⟩ name = classes.classattr cls name := rfl

@[simp] theorem getattr_setattr (obj : Instance γ ν) (name other : String) (value : ν) :
    classes.getattr (obj.setattr name value) other =
      if other = name then some value else classes.getattr obj other := by
  by_cases h : other = name
  · simp [getattr, Instance.setattr, h]
  · simp [getattr, Instance.setattr, List.lookup_cons, beq_false_of_ne h, h]

@[simp] theorem getattr_setattrIf (obj : Instance γ ν) (name other : String) (value : Option ν) :
    classes.getattr (obj.setattrIf name value) other =
      if other = name then value.or (classes.getattr obj other)
      else classes.getattr obj other := by
  cases value with
  | none => simp [Instance.setattrIf]
  | some value => simp [Instance.setattrIf]

theorem getattr_attach (obj : Instance γ ν) (name : String)
    (hnodup : (fields.map Prod.fst).Nodup) : classes.getattr (obj.attach fields) name =
      ((fields.lookup name).join).or (classes.getattr obj name) := by
  induction fields generalizing obj with
  | nil => rfl
  | cons field fields ih =>
    obtain ⟨hfresh, hrest⟩ := List.nodup_cons.mp hnodup
    obtain ⟨key, value⟩ := field
    rw [Instance.attach_cons, ih _ hrest, getattr_setattrIf, List.lookup_cons]
    by_cases h : name = key
    · subst h
      have hnone : fields.lookup name = none := by
        refine List.lookup_eq_none_iff.mpr fun entry hentry => bne_iff_ne.mpr fun heq => ?_
        exact hfresh (List.mem_map.mpr ⟨entry, hentry, heq.symm⟩)
      simp [hnone]
    · simp [h, beq_false_of_ne h]

end Classes

end Python
