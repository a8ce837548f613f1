/-
# The nearest configuration file

A configuration is looked for in a directory and in what is left of its path after dropping one
component after the other, under several names in each.  A place where it may be is given by two
numbers: how many components were dropped, and which of the names it is (`Config.candidate?`).  The
search ends, and what it finds is the existing place that comes first when the dropped components
are counted first (`Config.find_nearest`).

Two things make this so.

* **The directories.**  The search has as many steps as the path has parts, and a path has no more
  components than parts.  So the directories it goes through are all there are, and the last one has
  nothing left to drop (`Config.getElem?_ancestors`).
* **The order.**  A directory is left only when none of its names exists, so whatever comes after it
  is farther away, and inside a directory the names are tried in their order
  (`Config.Nearest.of_findAmong`).  Two places that both come first are the same.

Nothing is assumed of which paths exist, and in particular not that the directories do.
-/
import BuildStream.Config.Load
import BuildStream.Proofs.Files.Path

namespace BuildStream

namespace Config

/-! ## 1. The directories -/

/-- With enough steps, every directory is reached. -/
theorem getElem?_ancestorsTo {fuel : Nat} {path : String} (h : (Path.names path).length ≤ fuel)
    (k : Nat) : (ancestorsTo fuel path)[k]? = Path.dropped k path := by
  induction fuel generalizing path k with
  | zero =>
    cases k with
    | zero => rfl
    | succ k => rw [Path.dropped_of_lt (by omega)]; rfl
  | succ fuel ih =>
    unfold ancestorsTo
    cases ha : Path.parent? path with
    | none =>
      cases k with
      | zero => rfl
      | succ k => rw [Path.dropped, ha]; rfl
    | some above =>
      have hlength := Path.length_names_parent ha
      cases k with
      | zero => rfl
      | succ k => rw [Path.dropped, ha]; exact ih (by omega) k

/-- **The directories of a search** are what is left of a path after dropping its components. -/
theorem getElem?_ancestors (path : String) (k : Nat) :
    (ancestors path)[k]? = Path.dropped k path :=
  getElem?_ancestorsTo Path.length_componentsAmong_le k

/-! ## 2. The places -/

/-- The place of a configuration file, given how many components are dropped and which of the names
it has. -/
def candidate? (start : String) (dropped name : Nat) : Option String :=
  (Path.dropped dropped start).bind fun directory => (candidates directory)[name]?

/-- An existing place such that every other one is in a directory farther up, or in the same one
under a later name. -/
structure Nearest (pathExists : String → Bool) (start : String) (dropped name : Nat)
    (path : String) : Prop where
  place : candidate? start dropped name = some path
  there : pathExists path = true
  least : ∀ k i other, candidate? start k i = some other → pathExists other = true →
    dropped < k ∨ dropped = k ∧ name ≤ i

variable {pathExists : String → Bool} {start path : String}

theorem candidate?_eq_some {k i : Nat} : candidate? start k i = some path ↔
    ∃ directory, (ancestors start)[k]? = some directory ∧ (candidates directory)[i]? = some path := by
  rw [candidate?, Option.bind_eq_some_iff]
  simp only [getElem?_ancestors]

/-- Two places that both come first are the same. -/
theorem Nearest.unique {k i k' i' : Nat} {other : String} (h : Nearest pathExists start k i path)
    (h' : Nearest pathExists start k' i' other) : path = other := by
  have hle := h.least k' i' other h'.place h'.there
  have hge := h'.least k i path h.place h.there
  obtain ⟨rfl, rfl⟩ : k = k' ∧ i = i' := by omega
  exact Option.some.inj (h.place.symm.trans h'.place)

/-! ## 3. The search -/

/-- **What is found comes first**: the directories before its own have none of the names, and its
own has none of the earlier ones. -/
theorem Nearest.of_findAmong (h : findAmong pathExists start = some path) :
    ∃ k i, Nearest pathExists start k i path := by
  obtain ⟨before, directory, after, hsplit, hfind, hbefore⟩ := List.findSome?_eq_some_iff.mp h
  obtain ⟨hthere, i, hi, hpath, hearlier⟩ := List.find?_eq_some_iff_getElem.mp hfind
  have hdirectory : (ancestors start)[before.length]? = some directory := by
    rw [hsplit]
    simp
  refine ⟨before.length, i, ?_, hthere, ?_⟩
  · refine candidate?_eq_some.mpr ⟨directory, hdirectory, ?_⟩
    rw [List.getElem?_eq_getElem hi, hpath]
  · intro k j other hother hexists
    obtain ⟨nearer, hnearer, hname⟩ := candidate?_eq_some.mp hother
    rcases Nat.lt_trichotomy before.length k with hk | rfl | hk
    · exact .inl hk
    · obtain rfl : directory = nearer := Option.some.inj (hdirectory.symm.trans hnearer)
      refine .inr ⟨rfl, ?_⟩
      by_contra hj
      obtain ⟨hlength, hget⟩ := List.getElem?_eq_some_iff.mp hname
      have habsent := hearlier j (by omega)
      rw [hget, hexists] at habsent
      exact nomatch habsent
    · -- a nearer directory was left because none of its names exists
      have hmem : nearer ∈ before := by
        rw [hsplit, List.getElem?_append_left hk] at hnearer
        exact List.mem_of_getElem? hnearer
      have hnone := List.find?_eq_none.mp (hbefore nearer hmem) other (List.mem_of_getElem? hname)
      exact absurd hexists hnone

theorem findAmong_eq_none_iff : findAmong pathExists start = none ↔
    ∀ k i path, candidate? start k i = some path → pathExists path = false := by
  unfold findAmong
  rw [List.findSome?_eq_none_iff]
  constructor
  · intro h k i path hplace
    obtain ⟨directory, hdirectory, hname⟩ := candidate?_eq_some.mp hplace
    have hnone := h directory (List.mem_of_getElem? hdirectory)
    simpa using List.find?_eq_none.mp hnone path (List.mem_of_getElem? hname)
  · intro h directory hdirectory
    obtain ⟨k, hk⟩ := List.mem_iff_getElem?.mp hdirectory
    refine List.find?_eq_none.mpr ?_
    intro path hpath
    obtain ⟨i, hi⟩ := List.mem_iff_getElem?.mp hpath
    simpa using h k i path (candidate?_eq_some.mpr ⟨directory, hk, hi⟩)

theorem findAmong_eq_some_iff : findAmong pathExists start = some path ↔
    ∃ k i, Nearest pathExists start k i path := by
  constructor
  · exact Nearest.of_findAmong
  · rintro ⟨k, i, hnearest⟩
    cases hf : findAmong pathExists start with
    | none =>
      have habsent := findAmong_eq_none_iff.mp hf k i path hnearest.place
      exact nomatch habsent.symm.trans hnearest.there
    | some found =>
      obtain ⟨k', i', hfound⟩ := Nearest.of_findAmong hf
      rw [hnearest.unique hfound]

/-- **The nearest configuration file.**

As many directories are searched as the path has components, and one more: each time the last
component is dropped, and the search ends when none is left.  It finds nothing exactly if none of
the names exists in any of these directories.  Otherwise it finds what exists and comes first, by
the components dropped and then by the names, so what exists in a directory, under any name, is
never passed over for what is farther up. -/
theorem find_nearest (pathExists : String → Bool) (start : String) :
    (∀ k ≤ (Path.names start).length, ∃ directory, Path.dropped k start = some directory ∧
        Path.isAbsolute directory = Path.isAbsolute start ∧
        Path.names directory = (Path.names start).take ((Path.names start).length - k) ∧
        directory.toList <+: start.toList) ∧
      (∀ k, (Path.names start).length < k → Path.dropped k start = none) ∧
      (findAmong pathExists start = none ↔
        ∀ k i path, candidate? start k i = some path → pathExists path = false) ∧
      (∀ path, findAmong pathExists start = some path ↔
        ∃ k i, Nearest pathExists start k i path) ∧
      (∀ k i near, candidate? start k i = some near → pathExists near = true →
        ∃ k₀ ≤ k, ∃ i₀ found, Nearest pathExists start k₀ i₀ found ∧
          findAmong pathExists start = some found) ∧
      ∀ fs : Files, find fs start = findAmong fs.pathExists start := by
  refine ⟨fun k hk => Path.dropped_of_le hk, fun k hk => Path.dropped_of_lt hk,
    findAmong_eq_none_iff, fun path => findAmong_eq_some_iff, ?_, fun fs => rfl⟩
  · intro k i near hplace hthere
    cases hf : findAmong pathExists start with
    | none => exact nomatch (findAmong_eq_none_iff.mp hf k i near hplace).symm.trans hthere
    | some found =>
      obtain ⟨k₀, i₀, hfound⟩ := Nearest.of_findAmong hf
      have hle := hfound.least k i near hplace hthere
      exact ⟨k₀, by omega, i₀, found, hfound, rfl⟩

/-! ### A project inside another -/

/-- The last of the names in one directory, and the first of them farther up. -/
def nested (path : String) : Bool := path == "app/.buildlink.yaml" || path == "buildlink.toml"

/-- The nearer of the two files is found, although its name comes last. -/
theorem find_nested : candidate? "app/src" 1 3 = some "app/.buildlink.yaml" ∧
    candidate? "app/src" 2 0 = some "buildlink.toml" ∧ nested "buildlink.toml" = true ∧
    findAmong nested "app/src" = some "app/.buildlink.yaml" ∧
    (∃ k i, Nearest nested "app/src" k i "app/.buildlink.yaml") ∧
    Path.dropped 3 "app/src" = none := by
  have hfound : findAmong nested "app/src" = some "app/.buildlink.yaml" := by decide +kernel
  have hlength : (Path.names "app/src").length = 2 := by decide +kernel
  obtain ⟨-, hend, -, hnearest, -, -⟩ := find_nearest nested "app/src"
  exact ⟨by decide +kernel, by decide +kernel, rfl, hfound, (hnearest _).mp hfound,
    hend 3 (by omega)⟩

end Config

end BuildStream
