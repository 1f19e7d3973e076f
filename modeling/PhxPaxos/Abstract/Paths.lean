import Mathlib.Data.List.Basic
import Mathlib.Data.List.Infix

/-!
# Paths and what they denote

A path is a list of characters; its components are what stands between its slashes. A place in the file system is the list
of names from the root to it, and a path denotes the place to which its components lead, from the root or from the
directory of the process (`locate`). Links are left out.
-/

namespace Paths

abbrev Path := List Char

abbrev Name := List Char

abbrev Location := List Name

/-! ## Components -/

/-- Put a name in front, if there is one. -/
def consName (n : Name) (ns : List Name) : List Name := if n = [] then ns else n :: ns

/-- What stands before the first slash, and the components after it. -/
def splitName : Path → Name × List Name
  | [] => ([], [])
  | c :: p => if c = '/' then ([], consName (splitName p).1 (splitName p).2) else (c :: (splitName p).1, (splitName p).2)

/-- The components of a path, none of them empty. -/
def components (p : Path) : List Name := consName (splitName p).1 (splitName p).2

theorem splitName_append_slash (p q : Path) :
    splitName (p ++ '/' :: q) = ((splitName p).1, (splitName p).2 ++ components q) := by
  induction p with
  | nil => rfl
  | cons c p ih =>
    rw [List.cons_append]
    simp only [splitName, ih]
    split
    · unfold consName
      split <;> rfl
    · rfl

/-- The components of a path are those before and those after any of its slashes. -/
theorem components_append_slash (p q : Path) : components (p ++ '/' :: q) = components p ++ components q := by
  conv_lhs => unfold components
  rw [splitName_append_slash]
  conv_rhs => unfold components
  by_cases h : (splitName p).1 = []
  · rw [consName, consName, if_pos h, if_pos h]
    rfl
  · rw [consName, consName, if_neg h, if_neg h]
    rfl

theorem components_slash (p : Path) : components ('/' :: p) = components p := rfl

theorem components_nil : components [] = [] := rfl

theorem splitName_name {n : Name} (h : '/' ∉ n) : splitName n = (n, []) := by
  induction n with
  | nil => rfl
  | cons c n ih =>
    rw [List.mem_cons, not_or] at h
    unfold splitName
    rw [if_neg (Ne.symm h.1), ih h.2]

/-- A name is its only component. -/
theorem components_name {n : Name} (h : '/' ∉ n) (hne : n ≠ []) : components n = [n] := by
  unfold components consName
  rw [splitName_name h, if_neg hne]

theorem splitName_spec (p : Path) :
    '/' ∉ (splitName p).1 ∧ ∀ n ∈ (splitName p).2, n ≠ [] ∧ '/' ∉ n := by
  induction p with
  | nil => exact ⟨List.not_mem_nil, fun n hn => absurd hn List.not_mem_nil⟩
  | cons c p ih =>
    unfold splitName
    split
    · refine ⟨List.not_mem_nil, fun n hn => ?_⟩
      unfold consName at hn
      split at hn
      · exact ih.2 n hn
      · rcases List.mem_cons.mp hn with rfl | hn
        · exact ⟨‹_›, ih.1⟩
        · exact ih.2 n hn
    · rename_i hc
      refine ⟨fun hm => ?_, ih.2⟩
      rcases List.mem_cons.mp hm with h | hm
      · exact hc h.symm
      · exact ih.1 hm

/-- Components are names. -/
theorem mem_components {p : Path} {n : Name} (h : n ∈ components p) : n ≠ [] ∧ '/' ∉ n := by
  have hspec := splitName_spec p
  unfold components consName at h
  split at h
  · exact hspec.2 n h
  · rcases List.mem_cons.mp h with rfl | h
    · exact ⟨‹_›, hspec.1⟩
    · exact hspec.2 n h

/-! ## Places -/

def dot : Name := ['.']

def dotDot : Name := ['.', '.']

def isAbsolute (p : Path) : Bool := p.head? == some '/'

/-- Where one component leads to. -/
def move (l : Location) (n : Name) : Location :=
  if n = dot then l else if n = dotDot then l.dropLast else l ++ [n]

def walk (l : Location) (ns : List Name) : Location := ns.foldl move l

/-- Where a path starts for a process in the directory `cwd`. -/
def start (cwd : Location) (p : Path) : Location := if isAbsolute p then [] else cwd

/-- What a path denotes for a process in the directory `cwd`. -/
def locate (cwd : Location) (p : Path) : Location := walk (start cwd p) (components p)

@[simp] theorem walk_nil (l : Location) : walk l [] = l := rfl

theorem walk_cons (l : Location) (n : Name) (ns : List Name) : walk l (n :: ns) = walk (move l n) ns := rfl

theorem walk_append (l : Location) (ns ms : List Name) : walk l (ns ++ ms) = walk (walk l ns) ms := List.foldl_append

/-- Without `..` the way only leads on. -/
theorem walk_names {ns : List Name} (h : dotDot ∉ ns) (l : Location) : walk l ns = l ++ ns.filter (· ≠ dot) := by
  induction ns generalizing l with
  | nil => simp
  | cons n ns ih =>
    rw [List.mem_cons, not_or] at h
    rw [walk_cons, ih h.2]
    unfold move
    rw [if_neg (Ne.symm h.1)]
    by_cases hn : n = dot
    · rw [if_pos hn, List.filter_cons_of_neg (by simp [hn])]
    · rw [if_neg hn, List.filter_cons_of_pos (by simpa using hn), List.append_assoc]
      rfl

/-- A way that starts deep enough ends deeper than the same way from the root. -/
theorem walk_deeper {ns : List Name} : ∀ {l m : Location}, m.length + ns.length < l.length →
    (walk m ns).length < (walk l ns).length := by
  induction ns with
  | nil => exact fun h => h
  | cons n ns ih =>
    intro l m h
    rw [List.length_cons] at h
    rw [walk_cons, walk_cons]
    refine ih ?_
    unfold move
    split
    · omega
    · split
      · rw [List.length_dropLast, List.length_dropLast]
        omega
      · rw [List.length_append, List.length_append]
        omega

/-! ## Above and on the way -/

/-- `l` is a proper ancestor of `m`. -/
def Ancestor (l m : Location) : Prop := ∃ ns ≠ [], m = l ++ ns

theorem Ancestor.of_append {l ns : Location} (h : ns ≠ []) : Ancestor l (l ++ ns) := ⟨ns, h, rfl⟩

/-- `d` is a place that the way passes, its start included, its end not. -/
def OnWay (l : Location) (ns : List Name) (d : Location) : Prop := ∃ ms ps, ps ≠ [] ∧ ns = ms ++ ps ∧ d = walk l ms

theorem OnWay.start {l : Location} {ns : List Name} (h : ns ≠ []) : OnWay l ns l := ⟨[], ns, h, rfl, rfl⟩

theorem not_onWay_nil {l d : Location} : ¬ OnWay l [] d := by
  rintro ⟨ms, ps, hps, h, -⟩
  exact hps (List.append_eq_nil_iff.mp h.symm).2

/-- The way over one way and then another passes what either passes. -/
theorem onWay_append {l d : Location} {ns ms : List Name} :
    OnWay l (ns ++ ms) d ↔ OnWay l ns d ∨ OnWay (walk l ns) ms d := by
  constructor
  · rintro ⟨us, ps, hps, h, rfl⟩
    rcases List.append_eq_append_iff.mp h with ⟨vs, hv, hm⟩ | ⟨vs, hv, hp⟩
    · exact Or.inr ⟨vs, ps, hps, hm, by rw [hv, walk_append]⟩
    · by_cases hvs : vs = []
      · subst hvs
        rw [List.append_nil] at hv
        rw [List.nil_append] at hp
        exact Or.inr ⟨[], ms, hp ▸ hps, rfl, by rw [hv, walk_nil]⟩
      · exact Or.inl ⟨us, vs, hvs, hv, rfl⟩
  · rintro (⟨us, ps, hps, rfl, rfl⟩ | ⟨us, ps, hps, rfl, rfl⟩)
    · exact ⟨us, ps ++ ms, List.append_ne_nil_of_left_ne_nil hps ms, List.append_assoc us ps ms, rfl⟩
    · exact ⟨ns ++ us, ps, hps, (List.append_assoc ns us ps).symm, walk_append l ns us ▸ rfl⟩

theorem onWay_cons {l d : Location} {n : Name} {ns : List Name} :
    OnWay l (n :: ns) d ↔ d = l ∨ OnWay (move l n) ns d := by
  have hone : OnWay l [n] d ↔ d = l := by
    constructor
    · rintro ⟨ms, ps, hps, h, rfl⟩
      rcases List.append_eq_singleton_iff.mp h.symm with ⟨rfl, -⟩ | ⟨-, rfl⟩
      · rfl
      · exact absurd rfl hps
    · rintro rfl
      exact OnWay.start (List.cons_ne_nil n [])
  rw [← hone]
  exact @onWay_append l d [n] ns

/-- On a way of names that does not end in `.`, every place lies above the end. -/
theorem OnWay.ancestor {l d : Location} {ns : List Name} (hup : dotDot ∉ ns) (hlast : ns.getLast? ≠ some dot)
    (h : OnWay l ns d) : Ancestor d (walk l ns) := by
  obtain ⟨ms, ps, hps, rfl, rfl⟩ := h
  rw [walk_append]
  have hps' : dotDot ∉ ps := fun hm => hup (List.mem_append_right ms hm)
  rw [walk_names hps']
  refine Ancestor.of_append fun hnil => ?_
  have hmem := List.getLast_mem hps
  have hdot := List.filter_eq_nil_iff.mp hnil _ hmem
  rw [decide_not, Bool.not_eq_true', decide_eq_false_iff_not, not_not] at hdot
  refine hlast ?_
  rw [List.getLast?_append_of_ne_nil ms hps, List.getLast?_eq_some_getLast hps, hdot]

/-! ## Paths from names -/

/-- Names with a slash behind each. -/
def slashed (ns : List Name) : Path := (ns.map (· ++ ['/'])).flatten

@[simp] theorem slashed_nil : slashed [] = [] := rfl

theorem slashed_append (ns ms : List Name) : slashed (ns ++ ms) = slashed ns ++ slashed ms := by
  unfold slashed
  rw [List.map_append, List.flatten_append]

theorem slashed_singleton (n : Name) : slashed [n] = n ++ ['/'] := by
  unfold slashed
  simp

theorem components_slashed_append {ns : List Name} (hns : ∀ n ∈ ns, n ≠ [] ∧ '/' ∉ n) (p : Path) :
    components (slashed ns ++ p) = ns ++ components p := by
  induction ns with
  | nil => rfl
  | cons n ns ih =>
    obtain ⟨hne, hn⟩ := hns n List.mem_cons_self
    have hcons : slashed (n :: ns) ++ p = n ++ '/' :: (slashed ns ++ p) := by
      rw [show n :: ns = [n] ++ ns from rfl, slashed_append, slashed_singleton]
      simp
    rw [hcons, components_append_slash, components_name hn hne, ih fun m hm => hns m (List.mem_cons_of_mem n hm)]
    rfl

end Paths
