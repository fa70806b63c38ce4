import Mathlib.Data.List.Forall2
import Genaryx.Base.Path

/-!
# Where an environment's history lives

The durable history of an environment stands in a directory that is named after it, under the first
of three roots that can hold one. The name is made one segment of a path first, so two names that
differ in the characters that a segment may not hold share their directories.

## Implementation notes

The roots are what the process environment gives, so a path is a text here and two paths are one
where their components are.
-/

namespace Genaryx.Ingest

/-- The characters of an environment's name that its segment keeps. -/
def isKept (c : Char) : Bool := Text.isAsciiAlphanumeric c || c = '-' || c = '_'

/-- What stands for a character in the segment. -/
def safeChar (c : Char) : Char := if isKept c then c else '-'

/-- The segment of a path that an environment's name is made. -/
def safeSegment (env : Text) : Text :=
  let safe := env.map safeChar
  if safe.isEmpty then "default" else safe

/-- `store_dir_candidates`. -/
def storeDirCandidates (env : Text) (stateDir taipanHome home : Option Text) : List Text :=
  let safe := safeSegment env
  let out :=
    (stateDir.map fun d => Path.join d safe).toList ++
      (taipanHome.map fun t => Path.join (Path.join t "genaryx") safe).toList
  match home with
  | none => out
  | some h =>
      let underHome := Path.join (Path.join (Path.join h ".taipan") "genaryx") safe
      if out.any fun p => Path.same p underHome then out else out ++ [underHome]

/-- The roots that the console is given. -/
structure Roots where
  stateDir : Option Text
  taipanHome : Option Text
  home : Option Text

/-- The candidates of an environment under these roots. -/
def Roots.candidates (r : Roots) (env : Text) : List Text :=
  storeDirCandidates env r.stateDir r.taipanHome r.home

/-- The state directory, and the one of this console under `TAIPAN_HOME`. -/
def Roots.preferred (r : Roots) : List Text :=
  r.stateDir.toList ++ (r.taipanHome.map fun t => Path.join t "genaryx").toList

/-- The directory of this console under `HOME`. -/
def Roots.underHome (r : Roots) : Option Text :=
  r.home.map fun h => Path.join (Path.join h ".taipan") "genaryx"

/-- The directories that hold one directory for each environment. -/
def Roots.directories (r : Roots) : List Text := r.preferred ++ r.underHome.toList

section Segment

theorem safeChar_eq_self {c : Char} (h : safeChar c ≠ '-') : safeChar c = c := by
  rw [safeChar] at h ⊢
  split
  · rfl
  · next hkept => exact absurd (if_neg hkept) h

theorem isKept_safeChar (c : Char) : isKept (safeChar c) = true := by
  rw [safeChar]
  split
  · assumption
  · rfl

/-- Two characters that stand as one in a segment. -/
def Alike (c d : Char) : Prop :=
  c = d ∨ (c = '-' ∨ isKept c = false) ∧ (d = '-' ∨ isKept d = false)

theorem safeChar_eq_dash_iff (c : Char) : safeChar c = '-' ↔ c = '-' ∨ isKept c = false := by
  rw [safeChar]
  split
  · next hkept => simp [hkept]
  · next hkept => simp [hkept]

theorem safeChar_eq_iff (c d : Char) : safeChar c = safeChar d ↔ Alike c d := by
  constructor
  · intro h
    by_cases hdash : safeChar c = '-'
    · exact Or.inr ⟨(safeChar_eq_dash_iff c).mp hdash, (safeChar_eq_dash_iff d).mp (h ▸ hdash)⟩
    · refine Or.inl ?_
      rw [← safeChar_eq_self hdash, h]
      exact safeChar_eq_self (h ▸ hdash)
  · rintro (rfl | ⟨hc, hd⟩)
    · rfl
    · rw [(safeChar_eq_dash_iff c).mpr hc, (safeChar_eq_dash_iff d).mpr hd]

theorem map_safeChar_eq_iff (a b : Text) :
    a.map safeChar = b.map safeChar ↔ List.Forall₂ Alike a b := by
  rw [← List.forall₂_eq_eq_eq, List.forall₂_map_left_iff, List.forall₂_map_right_iff]
  simp only [safeChar_eq_iff]

/-- A segment without a dash is the name itself. -/
theorem eq_of_map_safeChar_eq {env t : Text} (hdash : '-' ∉ t) (h : env.map safeChar = t) :
    env = t := by
  have hself : env.map safeChar = env.map id := List.map_congr_left fun c hc =>
    safeChar_eq_self fun heq => hdash (h ▸ heq ▸ List.mem_map_of_mem hc)
  rw [← h, hself, List.map_id]

/-- Two names that are made one segment: they have the same length and differ only where both hold a
dash or a character that a segment does not keep, or one is empty and the other is the word for it. -/
def Confused (a b : Text) : Prop :=
  List.Forall₂ Alike a b ∨ a = [] ∧ b = "default" ∨ a = "default" ∧ b = []

theorem safeSegment_nil : safeSegment [] = "default" := rfl

theorem safeSegment_of_ne_nil {env : Text} (h : env ≠ []) : safeSegment env = env.map safeChar := by
  rw [safeSegment, if_neg (by simpa using h)]

theorem safeSegment_eq_default_iff (env : Text) :
    safeSegment env = "default" ↔ env = [] ∨ env = "default" := by
  rcases eq_or_ne env [] with rfl | hne
  · simp [safeSegment_nil]
  · rw [safeSegment_of_ne_nil hne, or_iff_right hne]
    exact ⟨eq_of_map_safeChar_eq (by decide), fun h => by rw [h]; decide⟩

theorem safeSegment_eq_iff (a b : Text) : safeSegment a = safeSegment b ↔ Confused a b := by
  rcases eq_or_ne a [] with rfl | ha
  · rw [safeSegment_nil, eq_comm, safeSegment_eq_default_iff, Confused, List.forall₂_nil_left_iff]
    simp
  · rcases eq_or_ne b [] with rfl | hb
    · rw [safeSegment_nil, safeSegment_eq_default_iff, Confused, List.forall₂_nil_right_iff]
      simp [ha]
    · rw [safeSegment_of_ne_nil ha, safeSegment_of_ne_nil hb, map_safeChar_eq_iff, Confused]
      simp [ha, hb]

/-- The segment is one component: it has no separator and is neither `.` nor `..`. -/
theorem isName_safeSegment (env : Text) : Path.IsName (safeSegment env) := by
  rcases eq_or_ne env [] with rfl | hne
  · exact ⟨by decide, by decide, by decide, by decide⟩
  · have hkept : ∀ c ∈ safeSegment env, isKept c = true := by
      rw [safeSegment_of_ne_nil hne]
      intro c hc
      obtain ⟨d, -, rfl⟩ := List.mem_map.mp hc
      exact isKept_safeChar d
    refine ⟨?_, ?_, ?_, fun hslash => nomatch hkept '/' hslash⟩
    · rw [safeSegment_of_ne_nil hne]
      simpa using hne
    · intro hdot
      rw [hdot] at hkept
      exact nomatch hkept '.' (by decide)
    · intro hdots
      rw [hdots] at hkept
      exact nomatch hkept '.' (by decide)

end Segment

section Candidates

variable (r : Roots) (env : Text)

/-- The candidates that are pushed without a look at the others. -/
theorem preferred_eq :
    (r.stateDir.map fun d => Path.join d (safeSegment env)).toList ++
        (r.taipanHome.map fun t => Path.join (Path.join t "genaryx") (safeSegment env)).toList =
      r.preferred.map fun dir => Path.join dir (safeSegment env) := by
  rw [Roots.preferred, List.map_append, ← Option.toList_map, ← Option.toList_map, Option.map_map]
  rfl

/-- The segment stands once in each of the directories, or the one under the home is left out where
an earlier candidate is that path. -/
theorem candidates_cases :
    r.candidates env = r.directories.map (fun dir => Path.join dir (safeSegment env)) ∨
      r.candidates env = r.preferred.map (fun dir => Path.join dir (safeSegment env)) ∧
        ∀ dir ∈ r.underHome, ∃ p ∈ r.candidates env,
          Path.same p (Path.join dir (safeSegment env)) = true := by
  rw [Roots.candidates, Roots.directories, Roots.underHome]
  rcases r.home with _ | h
  · rw [storeDirCandidates, preferred_eq]
    exact Or.inl (by simp)
  · rw [storeDirCandidates, preferred_eq]
    split
    · next hany =>
        refine Or.inr ⟨rfl, fun dir hdir => ?_⟩
        obtain rfl := Option.some.inj hdir
        exact List.any_eq_true.mp hany
    · exact Or.inl (by simp)

/-- Each candidate is the environment's segment in one of the directories. -/
theorem exists_directory {p : Text} (hp : p ∈ r.candidates env) :
    ∃ dir ∈ r.directories, p = Path.join dir (safeSegment env) := by
  rcases candidates_cases r env with h | ⟨h, -⟩
  · rw [h] at hp
    obtain ⟨dir, hdir, rfl⟩ := List.mem_map.mp hp
    exact ⟨dir, hdir, rfl⟩
  · rw [h] at hp
    obtain ⟨dir, hdir, rfl⟩ := List.mem_map.mp hp
    exact ⟨dir, List.mem_append_left _ hdir, rfl⟩

/-- Each of the directories holds the environment's segment at one of the candidates. -/
theorem exists_candidate {dir : Text} (hdir : dir ∈ r.directories) :
    ∃ p ∈ r.candidates env, Path.same p (Path.join dir (safeSegment env)) = true := by
  have hself : ∀ p : Text, Path.same p p = true := fun p => Path.same_iff.mpr rfl
  rcases candidates_cases r env with h | ⟨h, hunder⟩
  · exact ⟨_, h ▸ List.mem_map_of_mem hdir, hself _⟩
  · rcases List.mem_append.mp hdir with hpreferred | hhome
    · exact ⟨_, h ▸ List.mem_map_of_mem hpreferred, hself _⟩
    · exact hunder dir (Option.mem_toList.mp hhome)

end Candidates

/-- Two environments with different names. -/
structure TwoEnvironments where
  a : Text
  b : Text
  different : a ≠ b

/-- No candidate of one environment is a candidate of the other, and each is a direct child of one
of the directories that hold a directory for each environment. -/
structure Apart (r : Roots) (e : TwoEnvironments) : Prop where
  disjoint : ∀ p ∈ r.candidates e.a, ∀ q ∈ r.candidates e.b, ¬ Path.same p q = true
  placed : ∀ p ∈ r.candidates e.a ++ r.candidates e.b, ∃ dir ∈ r.directories,
    Path.parent p = some (Path.components dir)

/-- A root is given. -/
def Roots.Given (r : Roots) : Prop :=
  r.stateDir.isSome = true ∨ r.taipanHome.isSome = true ∨ r.home.isSome = true

section Shared

variable (r : Roots)

theorem directories_ne_nil_iff : r.directories ≠ [] ↔ r.Given := by
  rcases r with ⟨_ | d, _ | t, _ | h⟩ <;>
    simp [Roots.directories, Roots.preferred, Roots.underHome, Roots.Given]

theorem parent_of_mem {env p : Text} (hp : p ∈ r.candidates env) :
    ∃ dir ∈ r.directories, Path.parent p = some (Path.components dir) := by
  obtain ⟨dir, hdir, rfl⟩ := exists_directory r env hp
  exact ⟨dir, hdir, Path.parent_join dir (isName_safeSegment env)⟩

/-- Candidates that are one path are named by one segment. -/
theorem safeSegment_eq_of_same {a b p q : Text} (hp : p ∈ r.candidates a)
    (hq : q ∈ r.candidates b) (h : Path.same p q = true) : safeSegment a = safeSegment b := by
  obtain ⟨dir, -, rfl⟩ := exists_directory r a hp
  obtain ⟨dir', -, rfl⟩ := exists_directory r b hq
  rw [Path.same_iff, Path.components_join dir (isName_safeSegment a),
    Path.components_join dir' (isName_safeSegment b)] at h
  have hlast := (List.append_inj' h rfl).2
  rw [List.cons.injEq, Path.Component.normal.injEq] at hlast
  exact hlast.1

/-- Names that are made one segment share their candidates. -/
theorem exists_shared {a b : Text} (hgiven : r.Given) (h : safeSegment a = safeSegment b) :
    ∃ p ∈ r.candidates a, ∃ q ∈ r.candidates b, Path.same p q = true := by
  obtain ⟨dir, hdir⟩ := List.exists_mem_of_ne_nil _ ((directories_ne_nil_iff r).mpr hgiven)
  obtain ⟨p, hp, hsame⟩ := exists_candidate r a hdir
  obtain ⟨q, hq, hsame'⟩ := exists_candidate r b hdir
  rw [Path.same_iff] at hsame hsame'
  exact ⟨p, hp, q, hq, Path.same_iff.mpr (by rw [hsame, hsame', h])⟩

end Shared

/-- Two environments are apart unless a root is given and their names are confused. -/
theorem apart_iff (r : Roots) (e : TwoEnvironments) :
    Apart r e ↔ (r.Given → ¬ Confused e.a e.b) := by
  constructor
  · intro hapart hgiven hconfused
    obtain ⟨p, hp, q, hq, hsame⟩ :=
      exists_shared r hgiven ((safeSegment_eq_iff e.a e.b).mpr hconfused)
    exact hapart.disjoint p hp q hq hsame
  · intro h
    refine ⟨fun p hp q hq hsame => ?_, fun p hp => ?_⟩
    · obtain ⟨dir, hdir, -⟩ := exists_directory r e.a hp
      have hgiven := (directories_ne_nil_iff r).mp (List.ne_nil_of_mem hdir)
      exact h hgiven ((safeSegment_eq_iff e.a e.b).mp (safeSegment_eq_of_same r hp hq hsame))
    · rcases List.mem_append.mp hp with hp | hp
      · exact parent_of_mem r hp
      · exact parent_of_mem r hp

section Sample

/-- A name with a dot and the name with a dash in its place. -/
def dotted : TwoEnvironments where
  a := "acme.eu"
  b := "acme-eu"
  different := by decide

/-- A console that is given a state directory. -/
def mounted : Roots where
  stateDir := some "/state"
  taipanHome := none
  home := none

/-- Both environments' history would be in one directory. -/
theorem dotted_not_apart : ¬ Apart mounted dotted := by
  intro h
  exact h.disjoint "/state/acme-eu" (by decide) "/state/acme-eu" (by decide)
    (by decide)

end Sample

end Genaryx.Ingest
