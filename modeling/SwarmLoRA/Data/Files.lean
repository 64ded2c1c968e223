import Mathlib.Data.List.Basic

/-! Files, directories and symbolic links, and where a path leads. Locations are lists of names
from the root on, paths are lists of characters. -/
namespace Data.Files

abbrev Path := List Char

abbrev Name := List Char

/-- What a directory may have in it. -/
inductive Entry where
  | directory
  | file
  | link (target : Path)

/-- A name as it may occur in a directory. -/
def Proper (name : Name) : Prop := name ≠ [] ∧ '/' ∉ name

/-- Directories, files and links, as names lead to them. `unresolved` is what becomes of a path that
leads nowhere, of which nothing is promised. -/
structure FileSystem where
  entry : List Name → Option Entry
  cwd : List Name
  proper_cwd : ∀ name ∈ cwd, Proper name
  unresolved : Path → Path

/-- The parts of a path between its slashes. -/
def components : Path → List Name
  | [] => [[]]
  | c :: rest =>
      if c = '/' then [] :: components rest
      else
        match components rest with
        | [] => [[c]]
        | first :: more => (c :: first) :: more

/-- The path of a location. -/
def render : List Name → Path
  | [] => ['/']
  | names => names.flatMap ('/' :: ·)

/-- The second path is the first one, or leads on from it. -/
def Under (base path : Path) : Prop :=
  path = base ∨ (if base = ['/'] then base else base ++ ['/']) <+: path

namespace FileSystem

variable (fs : FileSystem)

def is_directory (location : List Name) : Bool :=
  location.isEmpty ||
    match fs.entry location with
    | some .directory => true
    | _ => false

def start (p : Path) : List Name := if p.head? = some '/' then [] else fs.cwd

/-- Goes from a location along the parts of a path, through at most so many links. -/
def walk (links : Nat) (location : List Name) (names : List Name) : Option (List Name) :=
  match names with
  | [] => some location
  | name :: rest =>
      if name = [] ∨ name = ['.'] then walk links location rest
      else if name = ['.', '.'] then walk links location.dropLast rest
      else
        match fs.entry (location ++ [name]) with
        | none => none
        | some .directory => walk links (location ++ [name]) rest
        | some .file => if rest = [] then some (location ++ [name]) else none
        | some (.link target) =>
            match links with
            | 0 => none
            | links + 1 =>
                walk links (if target.head? = some '/' then [] else location)
                  (components target ++ rest)
termination_by (links, names.length)

/-- Where a path leads. The system follows at most forty links. -/
def resolve (p : Path) : Option (List Name) :=
  if p = [] then none else fs.walk 40 (fs.start p) (components p)

def isdir (p : Path) : Bool :=
  match fs.resolve p with
  | some location => fs.is_directory location
  | none => false

def realpath (p : Path) : Path :=
  match fs.resolve p with
  | some location => render location
  | none => fs.unresolved p

end FileSystem

section Render

theorem no_slash_of_mem_components {p : Path} {name : Name} (h : name ∈ components p) :
    '/' ∉ name := by
  induction p generalizing name with
  | nil =>
      rw [components, List.mem_singleton] at h
      rw [h]
      exact List.not_mem_nil
  | cons c rest ih =>
      rw [components] at h
      split at h
      · rcases List.mem_cons.mp h with rfl | hRest
        · exact List.not_mem_nil
        · exact ih hRest
      · rename_i hSlash
        split at h
        · rw [List.mem_singleton.mp h, List.mem_singleton]
          exact Ne.symm hSlash
        · rename_i first more hRest
          rcases List.mem_cons.mp h with rfl | hMore
          · intro hMem
            rcases List.mem_cons.mp hMem with hHead | hTail
            · exact hSlash hHead.symm
            · exact ih (by rw [hRest]; exact List.mem_cons_self) hTail
          · exact ih (by rw [hRest]; exact List.mem_cons_of_mem first hMore)

theorem prefix_of_head_component {p : Path} {first : Name} {more : List Name}
    (h : components p = first :: more) : (more = [] ∧ p = first) ∨ first ++ ['/'] <+: p := by
  induction p generalizing first more with
  | nil =>
      obtain ⟨rfl, rfl⟩ := List.cons.inj h
      exact .inl ⟨rfl, rfl⟩
  | cons c rest ih =>
      rw [components] at h
      split at h
      · rename_i hSlash
        obtain ⟨rfl, _⟩ := List.cons.inj h
        exact .inr ⟨rest, by rw [hSlash]; rfl⟩
      · split at h
        · rename_i hNone
          cases rest with
          | nil => cases hNone
          | cons d rest =>
              rw [components] at hNone
              split at hNone
              · cases hNone
              · split at hNone
                · cases hNone
                · cases hNone
        · rename_i head tail hRest
          obtain ⟨rfl, rfl⟩ := List.cons.inj h
          rcases ih hRest with ⟨hLast, rfl⟩ | hPrefix
          · exact .inl ⟨hLast, rfl⟩
          · exact .inr (List.cons_prefix_cons.mpr ⟨rfl, hPrefix⟩)

/-- Behind a part of a path there is a slash, or nothing. -/
theorem infix_of_mem_components {p : Path} {name : Name} (h : name ∈ components p) :
    name ++ ['/'] <:+: p ∨ name <:+ p := by
  induction p generalizing name with
  | nil =>
      rw [List.mem_singleton.mp h]
      exact .inr List.suffix_rfl
  | cons c rest ih =>
      have hHead : ∀ {first more}, components (c :: rest) = first :: more →
          first ++ ['/'] <:+: c :: rest ∨ first <:+ c :: rest := by
        intro first more hSplit
        rcases prefix_of_head_component hSplit with ⟨_, hSame⟩ | hPrefix
        · exact .inr (hSame ▸ List.suffix_rfl)
        · exact .inl hPrefix.isInfix
      have hTail : ∀ n ∈ components rest,
          n ++ ['/'] <:+: c :: rest ∨ n <:+ c :: rest := by
        intro n hMem
        rcases ih hMem with hInfix | hSuffix
        · exact .inl (hInfix.trans (List.suffix_cons c rest).isInfix)
        · exact .inr (hSuffix.trans (List.suffix_cons c rest))
      cases hSplit : components (c :: rest) with
      | nil =>
          rw [hSplit] at h
          cases h
      | cons first more =>
          rw [hSplit] at h
          rcases List.mem_cons.mp h with rfl | hMore
          · exact hHead hSplit
          · apply hTail
            rw [components] at hSplit
            split at hSplit
            · exact (List.cons.inj hSplit).2 ▸ hMore
            · split at hSplit
              · rw [← (List.cons.inj hSplit).2] at hMore
                cases hMore
              · rename_i hRest
                rw [hRest, (List.cons.inj hSplit).2]
                exact List.mem_cons_of_mem _ hMore

theorem cut_unique {n m x y : Path} (hn : '/' ∉ n) (hm : '/' ∉ m)
    (hSame : n ++ '/' :: x = m ++ '/' :: y) : n = m ∧ x = y := by
  rcases List.append_eq_append_iff.mp hSame with ⟨c, hMore, hRest⟩ | ⟨c, hMore, hRest⟩
  · cases c with
    | nil =>
        rw [List.append_nil] at hMore
        exact ⟨hMore.symm, (List.cons.inj hRest).2⟩
    | cons k c =>
        obtain ⟨rfl, _⟩ := List.cons.inj hRest
        exact (hm (hMore ▸ List.mem_append_right n List.mem_cons_self)).elim
  · cases c with
    | nil =>
        rw [List.append_nil] at hMore
        exact ⟨hMore, (List.cons.inj hRest).2.symm⟩
    | cons k c =>
        obtain ⟨rfl, _⟩ := List.cons.inj hRest
        exact (hn (hMore ▸ List.mem_append_right m List.mem_cons_self)).elim

theorem name_prefix_iff {n m : Name} {x y : Path} (hn : '/' ∉ n) (hm : '/' ∉ m)
    (hy : y = [] ∨ ∃ y', y = '/' :: y') :
    n ++ '/' :: x <+: m ++ y ↔ n = m ∧ '/' :: x <+: y := by
  constructor
  · rintro ⟨t, hSame⟩
    rw [List.append_assoc, List.cons_append] at hSame
    rcases hy with rfl | ⟨y', rfl⟩
    · rw [List.append_nil] at hSame
      exact (hm (hSame ▸ List.mem_append_right n List.mem_cons_self)).elim
    · obtain ⟨rfl, hRest⟩ := cut_unique hn hm hSame
      exact ⟨rfl, t, by rw [List.cons_append, hRest]⟩
  · rintro ⟨rfl, hPrefix⟩
    exact (List.prefix_append_right_inj n).mpr hPrefix

variable {a b : List Name}

theorem flatMap_slash (b : List Name) :
    b.flatMap ('/' :: ·) = [] ∨ ∃ y, b.flatMap ('/' :: ·) = '/' :: y := by
  cases b with
  | nil => exact .inl rfl
  | cons m b => exact .inr ⟨_, rfl⟩

theorem slash_prefix_iff (ha : ∀ name ∈ a, Proper name) (hb : ∀ name ∈ b, Proper name) :
    a.flatMap ('/' :: ·) ++ ['/'] <+: b.flatMap ('/' :: ·) ↔ a <+: b ∧ a ≠ b := by
  induction a generalizing b with
  | nil =>
      cases b with
      | nil => simp
      | cons m b => simp
  | cons n a ih =>
      cases b with
      | nil => simp
      | cons m b =>
          have hRest := ih (fun name h => ha name (List.mem_cons_of_mem n h))
            (fun name h => hb name (List.mem_cons_of_mem m h))
          have hHead : ∃ x, a.flatMap ('/' :: ·) ++ ['/'] = '/' :: x := by
            rcases flatMap_slash a with hNil | ⟨x, hCons⟩
            · exact ⟨[], by rw [hNil]; rfl⟩
            · exact ⟨x ++ ['/'], by rw [hCons]; rfl⟩
          obtain ⟨x, hx⟩ := hHead
          rw [List.flatMap_cons, List.flatMap_cons, List.append_assoc, hx, List.cons_append,
            List.cons_append, List.cons_prefix_cons, ← List.nil_append (_ ++ '/' :: x),
            List.nil_append, name_prefix_iff (ha n List.mem_cons_self).2
              (hb m List.mem_cons_self).2 (flatMap_slash b), ← hx, hRest, List.cons_prefix_cons]
          constructor
          · rintro ⟨_, rfl, hPrefix, hOther⟩
            exact ⟨⟨rfl, hPrefix⟩, fun hSame => hOther (List.cons.inj hSame).2⟩
          · rintro ⟨⟨rfl, hPrefix⟩, hOther⟩
            exact ⟨rfl, rfl, hPrefix, fun hSame => hOther (hSame ▸ rfl)⟩

theorem prefix_of_flatMap_eq (ha : ∀ name ∈ a, Proper name) (hb : ∀ name ∈ b, Proper name)
    (hSame : a.flatMap ('/' :: ·) = b.flatMap ('/' :: ·)) : a <+: b := by
  -- the path of `b` with one more name begins with the path of `a` and a slash
  have hMore : ∀ name ∈ b ++ [['x']], Proper name := by
    intro name hMem
    rcases List.mem_append.mp hMem with hOld | hNew
    · exact hb name hOld
    · rw [List.mem_singleton.mp hNew]
      exact ⟨List.cons_ne_nil _ _, by decide⟩
  have hSlash : a.flatMap ('/' :: ·) ++ ['/'] <+: (b ++ [['x']]).flatMap ('/' :: ·) := by
    rw [hSame, List.flatMap_append]
    exact (List.prefix_append_right_inj _).mpr ⟨['x'], rfl⟩
  obtain ⟨hPrefix, hOther⟩ := (slash_prefix_iff ha hMore).mp hSlash
  exact (List.prefix_concat_iff.mp hPrefix).resolve_left hOther

theorem flatMap_slash_injective (ha : ∀ name ∈ a, Proper name) (hb : ∀ name ∈ b, Proper name)
    (hSame : a.flatMap ('/' :: ·) = b.flatMap ('/' :: ·)) : a = b := by
  have hab := prefix_of_flatMap_eq ha hb hSame
  have hba := prefix_of_flatMap_eq hb ha hSame.symm
  exact hab.eq_of_length (Nat.le_antisymm hab.length_le hba.length_le)

/-- Paths tell of two locations whether one is in the other. -/
theorem under_render_iff (ha : ∀ name ∈ a, Proper name) (hb : ∀ name ∈ b, Proper name) :
    Under (render a) (render b) ↔ a <+: b := by
  cases a with
  | nil =>
      refine iff_of_true (.inr ?_) List.nil_prefix
      cases b with
      | nil => exact List.prefix_rfl
      | cons m b => exact ⟨_, rfl⟩
  | cons n a =>
      have hLong : 1 < (render (n :: a)).length := by
        have hPos := List.length_pos_iff.mpr (ha n List.mem_cons_self).1
        rw [render, List.flatMap_cons, List.length_append, List.length_cons]
        · omega
        · simp
      have hBase : render (n :: a) ≠ ['/'] := by
        intro hSame
        rw [hSame] at hLong
        exact Nat.lt_irrefl 1 hLong
      unfold Under
      rw [if_neg hBase]
      cases b with
      | nil =>
          constructor
          · rintro (hSame | hPrefix)
            · exact (hBase hSame.symm).elim
            · have hLess := hPrefix.length_le
              rw [List.length_append] at hLess
              exact (Nat.not_le.mpr hLong (Nat.le_of_succ_le hLess)).elim
          · intro hPrefix
            cases List.prefix_nil.mp hPrefix
      | cons m b =>
          constructor
          · rintro (hSame | hPrefix)
            · exact (flatMap_slash_injective hb ha hSame) ▸ List.prefix_rfl
            · exact ((slash_prefix_iff ha hb).mp hPrefix).1
          · intro hPrefix
            by_cases hSame : n :: a = m :: b
            · rw [hSame]
              exact .inl rfl
            · exact .inr ((slash_prefix_iff ha hb).mpr ⟨hPrefix, hSame⟩)

end Render

section Walk

variable {fs : FileSystem}

theorem proper_concat {location : List Name} {name : Name}
    (hLocation : ∀ name ∈ location, Proper name) (hNonempty : name ≠ []) (hSlash : '/' ∉ name) :
    ∀ n ∈ location ++ [name], Proper n := by
  intro n hMem
  rcases List.mem_append.mp hMem with hOld | hNew
  · exact hLocation n hOld
  · rw [List.mem_singleton.mp hNew]
    exact ⟨hNonempty, hSlash⟩

/-- Links lead to proper locations again. -/
theorem proper_of_walk {links : Nat} {location names found : List Name}
    (hLocation : ∀ name ∈ location, Proper name) (hNames : ∀ name ∈ names, '/' ∉ name)
    (hWalk : fs.walk links location names = some found) : ∀ name ∈ found, Proper name := by
  induction links, location, names using FileSystem.walk.induct fs with
  | case1 links location =>
      rw [FileSystem.walk] at hWalk
      rw [← Option.some.inj hWalk]
      exact hLocation
  | case2 links location name rest hSkip ih =>
      rw [FileSystem.walk, if_pos hSkip] at hWalk
      exact ih hLocation (fun n h => hNames n (List.mem_cons_of_mem name h)) hWalk
  | case3 links location rest hOther ih =>
      rw [FileSystem.walk, if_neg hOther, if_pos rfl] at hWalk
      exact ih (fun n h => hLocation n (List.dropLast_subset _ h))
        (fun n h => hNames n (List.mem_cons_of_mem _ h)) hWalk
  | case4 links location name rest hSkip hUp hNone =>
      rw [FileSystem.walk, if_neg hSkip, if_neg hUp, hNone] at hWalk
      cases hWalk
  | case5 links location name rest hSkip hUp hEntry ih =>
      rw [FileSystem.walk, if_neg hSkip, if_neg hUp, hEntry] at hWalk
      exact ih (proper_concat hLocation (fun h => hSkip (.inl h))
          (hNames name List.mem_cons_self))
        (fun n h => hNames n (List.mem_cons_of_mem name h)) hWalk
  | case6 links location name hSkip hUp hEntry =>
      rw [FileSystem.walk, if_neg hSkip, if_neg hUp, hEntry] at hWalk
      obtain rfl := Option.some.inj hWalk
      exact proper_concat hLocation (fun h => hSkip (.inl h)) (hNames name List.mem_cons_self)
  | case7 links location name rest hSkip hUp hEntry hRest =>
      rw [FileSystem.walk, if_neg hSkip, if_neg hUp, hEntry] at hWalk
      dsimp only at hWalk
      rw [if_neg hRest] at hWalk
      cases hWalk
  | case8 location name rest hSkip hUp target hEntry =>
      rw [FileSystem.walk, if_neg hSkip, if_neg hUp, hEntry] at hWalk
      cases hWalk
  | case9 location name rest hSkip hUp target hEntry links ih =>
      rw [FileSystem.walk, if_neg hSkip, if_neg hUp, hEntry] at hWalk
      refine ih ?_ ?_ hWalk
      · split
        · exact List.forall_mem_nil _
        · exact hLocation
      · intro n hMem
        rcases List.mem_append.mp hMem with hTarget | hRest
        · exact no_slash_of_mem_components hTarget
        · exact hNames n (List.mem_cons_of_mem name hRest)

theorem proper_of_resolve {p : Path} {location : List Name}
    (hResolve : fs.resolve p = some location) : ∀ name ∈ location, Proper name := by
  unfold FileSystem.resolve at hResolve
  split at hResolve
  · cases hResolve
  · refine proper_of_walk ?_ (fun n h => no_slash_of_mem_components h) hResolve
    unfold FileSystem.start
    split
    · exact List.forall_mem_nil _
    · exact fs.proper_cwd

/-- The real path of a directory is inside that of another location just when the directory is. -/
theorem under_realpath_iff {p : Path} {base location : List Name}
    (hBase : ∀ name ∈ base, Proper name) (hResolve : fs.resolve p = some location) :
    Under (render base) (fs.realpath p) ↔ base <+: location := by
  unfold FileSystem.realpath
  rw [hResolve]
  exact under_render_iff hBase (proper_of_resolve hResolve)

/-- Where no link is met it does not matter how many might be. -/
theorem walk_of_no_links {links more : Nat} {location names found : List Name}
    (hNoLinks : links = 0) (hWalk : fs.walk links location names = some found) :
    fs.walk more location names = some found := by
  induction links, location, names using FileSystem.walk.induct fs with
  | case1 links location =>
      rw [FileSystem.walk] at hWalk ⊢
      exact hWalk
  | case2 links location name rest hSkip ih =>
      rw [FileSystem.walk, if_pos hSkip] at hWalk ⊢
      exact ih hNoLinks hWalk
  | case3 links location rest hOther ih =>
      rw [FileSystem.walk, if_neg hOther, if_pos rfl] at hWalk ⊢
      exact ih hNoLinks hWalk
  | case4 links location name rest hSkip hOther hNone =>
      rw [FileSystem.walk, if_neg hSkip, if_neg hOther, hNone] at hWalk
      cases hWalk
  | case5 links location name rest hSkip hOther hEntry ih =>
      rw [FileSystem.walk, if_neg hSkip, if_neg hOther, hEntry] at hWalk ⊢
      exact ih hNoLinks hWalk
  | case6 links location name hSkip hOther hEntry =>
      rw [FileSystem.walk, if_neg hSkip, if_neg hOther, hEntry] at hWalk ⊢
      exact hWalk
  | case7 links location name rest hSkip hOther hEntry hRest =>
      rw [FileSystem.walk, if_neg hSkip, if_neg hOther, hEntry] at hWalk ⊢
      exact hWalk
  | case8 location name rest hSkip hOther target hEntry =>
      rw [FileSystem.walk, if_neg hSkip, if_neg hOther, hEntry] at hWalk
      cases hWalk
  | case9 location name rest hSkip hOther target hEntry links => cases hNoLinks

/-- Without links and without `..` a path leads on from where it starts. -/
theorem prefix_of_walk {links : Nat} {location names found : List Name} (hNoLinks : links = 0)
    (hUp : ['.', '.'] ∉ names) (hWalk : fs.walk links location names = some found) :
    location <+: found := by
  induction links, location, names using FileSystem.walk.induct fs with
  | case1 links location =>
      rw [FileSystem.walk] at hWalk
      exact (Option.some.inj hWalk) ▸ List.prefix_rfl
  | case2 links location name rest hSkip ih =>
      rw [FileSystem.walk, if_pos hSkip] at hWalk
      exact ih hNoLinks (fun h => hUp (List.mem_cons_of_mem name h)) hWalk
  | case3 links location rest => exact (hUp List.mem_cons_self).elim
  | case4 links location name rest hSkip hOther hNone =>
      rw [FileSystem.walk, if_neg hSkip, if_neg hOther, hNone] at hWalk
      cases hWalk
  | case5 links location name rest hSkip hOther hEntry ih =>
      rw [FileSystem.walk, if_neg hSkip, if_neg hOther, hEntry] at hWalk
      exact (List.prefix_append location [name]).trans
        (ih hNoLinks (fun h => hUp (List.mem_cons_of_mem name h)) hWalk)
  | case6 links location name hSkip hOther hEntry =>
      rw [FileSystem.walk, if_neg hSkip, if_neg hOther, hEntry] at hWalk
      obtain rfl := Option.some.inj hWalk
      exact List.prefix_append location [name]
  | case7 links location name rest hSkip hOther hEntry hRest =>
      rw [FileSystem.walk, if_neg hSkip, if_neg hOther, hEntry] at hWalk
      dsimp only at hWalk
      rw [if_neg hRest] at hWalk
      cases hWalk
  | case8 location name rest hSkip hOther target hEntry =>
      rw [FileSystem.walk, if_neg hSkip, if_neg hOther, hEntry] at hWalk
      cases hWalk
  | case9 location name rest hSkip hOther target hEntry links => cases hNoLinks

end Walk

end Data.Files
