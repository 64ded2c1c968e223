import Mathlib.Data.List.Infix
import SwarmLoRA.Data.Files

/-! Which directories a worker loads adapters from. An adapter id names a local directory or a
repository of the hub, and local directories have to be in one of the registered bases. -/
namespace Worker.AdapterPath

open Data Files

/-- The `ValueError`s of the check, each with the id it names. -/
inductive AdapterError where
  | invalid_adapter_id (lora_path : Path)
  | outside_allowed_directories (lora_path : Path)
  | path_traversal (lora_path : Path)

/-- Where the files of an adapter are read from. -/
inductive Source where
  | directory (path : Path)
  | hub (repo_id : Path)

def hub_char (c : Char) : Bool := c.isAlphanum || c = '_' || c = '.' || c = '-'

/-- `_HF_REPO_RE.match`, for which a line break may follow at the end. -/
def matches_hub_id (lora_path : Path) : Bool :=
  let id := if lora_path.getLast? = some '\n' then lora_path.dropLast else lora_path
  match components id with
  | [owner, repo] => owner ≠ [] && owner.all hub_char && repo ≠ [] && repo.all hub_char
  | _ => false

def looks_like_hf (lora_path : Path) : Bool :=
  matches_hub_id lora_path && ['.', '.'] ∉ components lora_path

section Load

variable (fs : FileSystem) (allowed_adapter_bases : List Path)

def register_adapter_base_dir (base_dir : Path) : List Path :=
  let real := fs.realpath base_dir
  if real ∈ allowed_adapter_bases then allowed_adapter_bases else allowed_adapter_bases ++ [real]

/-- The bases that are registered after a worker has registered these directories. -/
def registered (base_dirs : List Path) : List Path :=
  base_dirs.foldl (register_adapter_base_dir fs) []

/-- Empty, with a character that ends strings elsewhere, or too long. -/
def malformed (lora_path : Path) : Bool :=
  lora_path = [] || '\x00' ∈ lora_path || 512 < lora_path.length

def traverses (lora_path : Path) : Bool :=
  ['.', '.', '/'] <:+: lora_path || ['.', '.'] <:+ lora_path

def validate_adapter_id (lora_path : Path) : Except AdapterError Unit :=
  if malformed lora_path then .error (.invalid_adapter_id lora_path)
  else if fs.isdir lora_path || !looks_like_hf lora_path then
    let real := fs.realpath lora_path
    if allowed_adapter_bases ≠ [] then
      if allowed_adapter_bases.any fun base => base ++ ['/'] <+: real || real = base then .ok ()
      else .error (.outside_allowed_directories lora_path)
    else if traverses lora_path then .error (.path_traversal lora_path)
    else .ok ()
  else .ok ()

def resolve_lora_path (lora_path : Path) : Source :=
  if fs.isdir lora_path then .directory (fs.realpath lora_path) else .hub lora_path

/-- `load_lora_fast` up to where it begins to read. -/
def load_lora_fast (lora_path : Path) : Except AdapterError Source := do
  validate_adapter_id fs allowed_adapter_bases lora_path
  return resolve_lora_path fs lora_path

end Load

/-- What is read from a local directory is read from one of the bases, or from the working
directory if there is no base. -/
def Confined (fs : FileSystem) (base_dirs : List Path) (lora_path : Path) : Prop :=
  ∀ path, load_lora_fast fs (registered fs base_dirs) lora_path = .ok (.directory path) →
    if base_dirs = [] then Under (render fs.cwd) path
    else ∃ base_dir ∈ base_dirs, Under (fs.realpath base_dir) path

/-- An id that passes the check without bases, and that leads to a directory outside the working
directory. -/
def Leaves (fs : FileSystem) (lora_path : Path) : Prop :=
  malformed lora_path = false ∧ traverses lora_path = false ∧
    ∃ location, fs.resolve lora_path = some location ∧ fs.is_directory location = true ∧
      ¬fs.cwd <+: location

section Registered

variable {fs : FileSystem} {bases base_dirs : List Path}

theorem mem_register_iff {base base_dir : Path} :
    base ∈ register_adapter_base_dir fs bases base_dir ↔
      base ∈ bases ∨ base = fs.realpath base_dir := by
  unfold register_adapter_base_dir
  dsimp only
  split
  · rename_i hOld
    constructor
    · exact Or.inl
    · rintro (hMem | rfl)
      · exact hMem
      · exact hOld
  · rw [List.mem_append, List.mem_singleton]

theorem mem_foldl_register {base : Path} :
    base ∈ base_dirs.foldl (register_adapter_base_dir fs) bases ↔
      base ∈ bases ∨ ∃ base_dir ∈ base_dirs, base = fs.realpath base_dir := by
  induction base_dirs generalizing bases with
  | nil => simp
  | cons base_dir rest ih =>
      rw [List.foldl_cons, ih, mem_register_iff, or_assoc, List.exists_mem_cons_iff]

theorem mem_registered {base : Path} :
    base ∈ registered fs base_dirs ↔ ∃ base_dir ∈ base_dirs, base = fs.realpath base_dir := by
  unfold registered
  rw [mem_foldl_register]
  simp

theorem registered_eq_nil_iff : registered fs base_dirs = [] ↔ base_dirs = [] := by
  constructor
  · intro hNone
    cases base_dirs with
    | nil => rfl
    | cons base_dir rest =>
        have hMem : fs.realpath base_dir ∈ registered fs (base_dir :: rest) :=
          mem_registered.mpr ⟨base_dir, List.mem_cons_self, rfl⟩
        rw [hNone] at hMem
        cases hMem
  · rintro rfl
    rfl

end Registered

section Confinement

variable {fs : FileSystem} {bases base_dirs : List Path} {lora_path path : Path}

theorem validate_ok_iff (hDir : fs.isdir lora_path = true) :
    validate_adapter_id fs bases lora_path = .ok () ↔
      malformed lora_path = false ∧
        if bases = [] then traverses lora_path = false
        else ∃ base ∈ bases, base ++ ['/'] <+: fs.realpath lora_path ∨
          fs.realpath lora_path = base := by
  unfold validate_adapter_id
  rw [hDir]
  cases malformed lora_path with
  | true => simp
  | false =>
      by_cases hNone : bases = []
      · cases traverses lora_path with
        | true => simp [hNone]
        | false => simp [hNone]
      · simp only [hNone, Bool.false_eq_true, if_false, Bool.true_or, if_true, ne_eq,
          not_false_eq_true, true_and]
        split
        · rename_i hAny
          simpa using hAny
        · rename_i hAny
          simpa using hAny

/-- A local directory is read just when the check has let it pass. -/
theorem load_directory_iff : load_lora_fast fs bases lora_path = .ok (.directory path) ↔
    fs.isdir lora_path = true ∧ path = fs.realpath lora_path ∧
      validate_adapter_id fs bases lora_path = .ok () := by
  unfold load_lora_fast resolve_lora_path
  cases validate_adapter_id fs bases lora_path with
  | error e =>
      constructor
      · intro h
        cases h
      · rintro ⟨_, _, h⟩
        cases h
  | ok _ =>
      cases fs.isdir lora_path with
      | false =>
          constructor
          · intro h
            cases h
          · rintro ⟨h, _⟩
            cases h
      | true =>
          constructor
          · intro h
            exact ⟨rfl, (Source.directory.inj (Except.ok.inj h)).symm, rfl⟩
          · rintro ⟨_, rfl, _⟩
            rfl

theorem under_of_prefix {base : Path} (h : base ++ ['/'] <+: path ∨ path = base) :
    Under base path := by
  rcases h with hPrefix | hSame
  · refine .inr ?_
    split
    · exact (List.prefix_append base ['/']).trans hPrefix
    · exact hPrefix
  · exact .inl hSame

theorem not_confined_of_leaves (h : Leaves fs lora_path) : ¬Confined fs [] lora_path := by
  obtain ⟨hFormed, hDown, location, hResolve, hDirectory, hOutside⟩ := h
  intro hConfined
  have hDir : fs.isdir lora_path = true := by
    unfold FileSystem.isdir
    rw [hResolve]
    exact hDirectory
  have hUnder := hConfined (fs.realpath lora_path)
    (load_directory_iff.mpr ⟨hDir, rfl, (validate_ok_iff hDir).mpr ⟨hFormed, hDown⟩⟩)
  exact hOutside ((under_realpath_iff fs.proper_cwd hResolve).mp hUnder)

/-- It takes a link on the way, or an absolute path, to leave the working directory. -/
theorem not_leaves_of_direct (hRelative : lora_path.head? ≠ some '/')
    (hDirect : (fs.walk 0 fs.cwd (components lora_path)).isSome) : ¬Leaves fs lora_path := by
  rintro ⟨_, hDown, location, hResolve, _, hOutside⟩
  obtain ⟨found, hFound⟩ := Option.isSome_iff_exists.mp hDirect
  have hUp : ['.', '.'] ∉ components lora_path := by
    intro hMem
    have hTraverses : traverses lora_path = true := by
      unfold traverses
      rw [Bool.or_eq_true, decide_eq_true_eq, decide_eq_true_eq]
      exact infix_of_mem_components hMem
    rw [hTraverses] at hDown
    cases hDown
  have hStart : fs.start lora_path = fs.cwd := if_neg hRelative
  unfold FileSystem.resolve at hResolve
  rw [hStart, walk_of_no_links rfl hFound] at hResolve
  split at hResolve
  · cases hResolve
  · obtain rfl := Option.some.inj hResolve
    exact hOutside (prefix_of_walk rfl hUp hFound)

/-- Nothing is read from outside the bases, but where there are none the working directory can be
left: then only `..` is refused in an id, and neither an absolute one nor a link is. -/
theorem confined_iff : Confined fs base_dirs lora_path ↔
    (base_dirs = [] → ¬Leaves fs lora_path) := by
  unfold Confined
  by_cases hNone : base_dirs = []
  · subst hNone
    constructor
    · intro hConfined _ hLeaves
      exact not_confined_of_leaves hLeaves hConfined
    · intro hStays path hLoad
      obtain ⟨hDir, rfl, hValid⟩ := load_directory_iff.mp hLoad
      obtain ⟨hFormed, hDown⟩ := (validate_ok_iff hDir).mp hValid
      rw [if_pos rfl]
      unfold FileSystem.isdir at hDir
      split at hDir
      · rename_i location hResolve
        apply (under_realpath_iff fs.proper_cwd hResolve).mpr
        by_contra hOutside
        exact hStays rfl ⟨hFormed, hDown, location, hResolve, hDir, hOutside⟩
      · cases hDir
  · refine iff_of_true ?_ fun h => (hNone h).elim
    intro path hLoad
    obtain ⟨hDir, rfl, hValid⟩ := load_directory_iff.mp hLoad
    have hSome := ((validate_ok_iff hDir).mp hValid).2
    rw [if_neg fun h => hNone (registered_eq_nil_iff.mp h)] at hSome
    obtain ⟨base, hBase, hUnder⟩ := hSome
    obtain ⟨base_dir, hMem, rfl⟩ := mem_registered.mp hBase
    rw [if_neg hNone]
    exact ⟨base_dir, hMem, under_of_prefix hUnder⟩

/-- A worker in a directory of its own, beside another one. -/
def twoDirectories : FileSystem where
  entry location :=
    if location = [['w']] ∨ location = [['e']] then some .directory else none
  cwd := [['w']]
  proper_cwd := by
    intro name hMem
    rw [List.mem_singleton.mp hMem]
    exact ⟨List.cons_ne_nil _ _, by decide⟩
  unresolved p := p

/-- An absolute path leads out of the working directory. -/
theorem absolute_path_leaves : ¬∀ (fs : FileSystem) (base_dirs : List Path) (lora_path : Path),
    Confined fs base_dirs lora_path := by
  intro h
  have hResolve : twoDirectories.resolve ['/', 'e'] = some [['e']] := by
    simp [FileSystem.resolve, FileSystem.start, FileSystem.walk, components, twoDirectories]
  have hLeaves : Leaves twoDirectories ['/', 'e'] :=
    ⟨rfl, rfl, [['e']], hResolve, rfl, by decide⟩
  exact not_confined_of_leaves hLeaves (h twoDirectories [] ['/', 'e'])

end Confinement

end Worker.AdapterPath
