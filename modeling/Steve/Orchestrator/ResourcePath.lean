import Steve.Adapters.Factory
import Steve.Orchestrator.Worker

/-!
# Where a worker's file lies

The factory reads the scheme of a target address up to the first separator, in any letter
case. The worker never reads it: it deletes two spelled-out schemes wherever they occur. The
two agree on the path exactly when the scheme is one of the two as spelled and the rest of
the address contains neither.
-/

namespace Steve.Orchestrator

open Steve.Library
open Steve.Adapters

/-- The address with both spelled-out schemes deleted. -/
def strippedUri (targetUri : List Char) : List Char :=
  replaceAll "posix://".toList [] (replaceAll "file://".toList [] targetUri)

/-- A path that starts at the root or names a Windows drive. -/
def isAbsolute (path : List Char) : Bool :=
  "/".toList.isPrefixOf path || containsSubstring ":\\".toList path

/-- The file of a core at a path, which is taken from the working directory unless absolute. -/
def coreFile (path : String) (coreId : ℕ) : String :=
  (if isAbsolute path.toList then path else "./" ++ path) ++ s!"_core_{coreId}.dat"

/-- The worker's path is the core's file at the stripped address. -/
theorem resourcePath_eq (targetUri : String) (coreId : ℕ) :
    resourcePath targetUri coreId =
      coreFile (String.ofList (strippedUri targetUri.toList)) coreId := by
  have hsuffix (base : String) :
      s!"{base}_core_{coreId}.dat" = base ++ s!"_core_{coreId}.dat" := by
    simp only [toString, String.append_assoc]
  have hpath : resourcePath targetUri coreId = String.ofList
      (if "/".toList.isPrefixOf (strippedUri targetUri.toList) = false ∧
          containsSubstring ":\\".toList (strippedUri targetUri.toList) = false then
        "./".toList ++ strippedUri targetUri.toList
      else strippedUri targetUri.toList) ++ s!"_core_{coreId}.dat" := hsuffix _
  have hstripped : (String.ofList (strippedUri targetUri.toList)).toList =
      strippedUri targetUri.toList := String.toList_ofList
  rw [hpath, coreFile, hstripped]
  cases habsolute : isAbsolute (strippedUri targetUri.toList) with
  | false =>
    obtain ⟨hroot, hdrive⟩ := Bool.or_eq_false_iff.mp habsolute
    rw [if_pos ⟨hroot, hdrive⟩, if_neg Bool.false_ne_true, String.ofList_append,
      String.ofList_toList]
  | true =>
    have hnot : ¬ ("/".toList.isPrefixOf (strippedUri targetUri.toList) = false ∧
        containsSubstring ":\\".toList (strippedUri targetUri.toList) = false) := by
      rw [← Bool.or_eq_false_iff]
      exact fun hfalse => Bool.noConfusion (habsolute.symm.trans hfalse)
    rw [if_neg hnot, if_pos rfl]

/-- A relative path stays relative with the working directory in front. -/
theorem isAbsolute_dot (path : List Char) (h : isAbsolute path = false) :
    isAbsolute ("./".toList ++ path) = false := by
  obtain ⟨-, hdrive⟩ := Bool.or_eq_false_iff.mp h
  exact hdrive

/-- Different paths give different files. -/
theorem coreFile_injective (coreId : ℕ) : Function.Injective fun path => coreFile path coreId := by
  intro left right h
  have hpaths := (String.append_left_inj _).mp h
  by_cases hleft : isAbsolute left.toList <;> by_cases hright : isAbsolute right.toList
  · rwa [if_pos hleft, if_pos hright] at hpaths
  · rw [if_pos hleft, if_neg hright] at hpaths
    have hdot := isAbsolute_dot right.toList (by simpa using hright)
    rw [hpaths, String.toList_append, hdot] at hleft
    cases hleft
  · rw [if_neg hleft, if_pos hright] at hpaths
    have hdot := isAbsolute_dot left.toList (by simpa using hleft)
    rw [← hpaths, String.toList_append, hdot] at hright
    cases hright
  · rw [if_neg hleft, if_neg hright] at hpaths
    exact (String.append_right_inj _).mp hpaths

/-- A scheme without a separator is what stands before the first one. -/
theorem beforeFirst_separator {scheme : List Char}
    (h : containsSubstring "://".toList scheme = false) (rest : List Char) :
    beforeFirst "://".toList (scheme ++ "://".toList ++ rest) = scheme := by
  induction scheme with
  | nil => rfl
  | cons first later ih =>
    obtain ⟨hfirst, hlater⟩ := Bool.or_eq_false_iff.mp h
    have hstart : "://".toList.isPrefixOf (first :: (later ++ "://".toList ++ rest)) = false := by
      -- an occurrence can neither lie in the scheme nor run into the separator
      match later with
      | [] => simp [List.isPrefixOf]
      | [second] => simp [List.isPrefixOf]
      | second :: third :: _ => simpa [List.isPrefixOf] using hfirst
    rw [List.cons_append, List.cons_append, beforeFirst, if_neg (by rw [hstart]; simp), ih hlater]

/-- The words of a file-backed scheme. -/
theorem scheme_of_fileBacked {targetUri : String}
    (h : AdapterFactory.getAdapterClass false targetUri = .ok .posixDirectIo ∨
      AdapterFactory.getAdapterClass false targetUri = .ok .ioUring) :
    AdapterFactory.scheme targetUri ∈ ["posix", "file"] ∨
      AdapterFactory.scheme targetUri ∈ ["iouring", "io_uring"] := by
  simp only [AdapterFactory.getAdapterClass, Bool.false_eq_true, if_false] at h
  split at h
  · exact Or.inl ‹_›
  · split at h
    · exact Or.inr ‹_›
    · split at h
      · simp at h
      · split at h
        · simp at h
        · simp at h

/-- A leading spelled-out scheme is deleted. -/
theorem strippedUri_append {scheme : String} (h : scheme = "posix" ∨ scheme = "file")
    (rest : List Char) :
    strippedUri (scheme.toList ++ "://".toList ++ rest) = strippedUri rest := by
  cases h with
  | inl hposix =>
    have hkept : replaceAll "file://".toList [] ("posix://".toList ++ rest) =
        "posix://".toList ++ replaceAll "file://".toList [] rest :=
      replaceAll_append_of_notMem _ _ (by decide) rest
    rw [hposix]
    change strippedUri ("posix://".toList ++ rest) = strippedUri rest
    rw [strippedUri, hkept, replaceAll_append_self (by decide), List.nil_append, strippedUri]
  | inr hfile =>
    rw [hfile]
    change strippedUri ("file://".toList ++ rest) = strippedUri rest
    rw [strippedUri, replaceAll_append_self (by decide), List.nil_append, strippedUri]

/-- Deleting both schemes leaves exactly the texts that contain neither. -/
theorem strippedUri_eq_self_iff (text : List Char) :
    strippedUri text = text ↔ containsSubstring "file://".toList text = false ∧
      containsSubstring "posix://".toList text = false := by
  constructor
  · intro h
    have hlength := congrArg List.length h
    have hfileNonempty : "file://".toList ≠ [] := by decide
    have hposixNonempty : "posix://".toList ≠ [] := by decide
    obtain ⟨hfileLe, hfileLt⟩ := replaceAll_length hfileNonempty text
    obtain ⟨hposixLe, hposixLt⟩ :=
      replaceAll_length hposixNonempty (replaceAll "file://".toList [] text)
    rw [strippedUri] at hlength
    have hfile : containsSubstring "file://".toList text = false := by
      by_contra hcontains
      have hlt := hfileLt (by simpa using hcontains)
      omega
    refine ⟨hfile, ?_⟩
    rw [replaceAll_eq_self _ hfile] at hlength hposixLt
    by_contra hcontains
    have hlt := hposixLt (by simpa using hcontains)
    omega
  · intro h
    rw [strippedUri, replaceAll_eq_self _ h.1, replaceAll_eq_self _ h.2]

/-- Characters of neither spelled-out scheme are kept. -/
theorem count_strippedUri {char : Char} (hposix : char ∉ "posix://".toList)
    (hfile : char ∉ "file://".toList) (text : List Char) :
    (strippedUri text).count char = text.count char := by
  rw [strippedUri, count_replaceAll (by decide) hposix, count_replaceAll (by decide) hfile]

/-- A scheme that the deletion removes is made of the characters of the two spelled out. -/
theorem mem_of_strippedUri_eq {scheme rest : List Char}
    (h : strippedUri (scheme ++ "://".toList ++ rest) = rest) :
    ∀ char ∈ scheme, char ∈ "posix://".toList ++ "file://".toList := by
  intro char hchar
  by_contra hout
  rw [List.mem_append, not_or] at hout
  have hcount := congrArg (List.count char) h
  rw [count_strippedUri hout.1 hout.2, List.count_append, List.count_append] at hcount
  have hpos := List.count_pos_iff.mpr hchar
  omega

/-- The worker's path follows from the scheme and the rest of a file-backed address exactly
when the scheme is spelled out in lower case as `posix` or `file` and the rest contains
neither of the two with its separator. -/
theorem resourcePath_eq_coreFile_iff (scheme rest : String)
    (hscheme : containsSubstring "://".toList scheme.toList = false)
    (hresolves : AdapterFactory.getAdapterClass false (scheme ++ "://" ++ rest) =
        .ok .posixDirectIo ∨
      AdapterFactory.getAdapterClass false (scheme ++ "://" ++ rest) = .ok .ioUring)
    (coreId : ℕ) :
    resourcePath (scheme ++ "://" ++ rest) coreId = coreFile rest coreId ↔
      (scheme = "posix" ∨ scheme = "file") ∧
        containsSubstring "file://".toList rest.toList = false ∧
        containsSubstring "posix://".toList rest.toList = false := by
  have huri : (scheme ++ "://" ++ rest).toList = scheme.toList ++ "://".toList ++ rest.toList := by
    rw [String.toList_append, String.toList_append]
  have hlowered : AdapterFactory.scheme (scheme ++ "://" ++ rest) =
      String.ofList (scheme.toList.map Char.toLower) := by
    rw [AdapterFactory.scheme, huri, beforeFirst_separator hscheme]
  have hpath : resourcePath (scheme ++ "://" ++ rest) coreId = coreFile rest coreId ↔
      strippedUri (scheme.toList ++ "://".toList ++ rest.toList) = rest.toList := by
    rw [resourcePath_eq, huri, (coreFile_injective coreId).eq_iff, ← String.toList_inj,
      String.toList_ofList]
  rw [hpath]
  constructor
  · intro h
    have hmem := mem_of_strippedUri_eq h
    have hlower : ("posix://".toList ++ "file://".toList).map Char.toLower =
        ("posix://".toList ++ "file://".toList).map id := by decide
    have hsame : scheme.toList.map Char.toLower = scheme.toList := by
      rw [List.map_congr_left fun char hchar =>
        List.map_inj_left.mp hlower char (hmem char hchar), List.map_id]
    have hspelled : scheme = "posix" ∨ scheme = "file" := by
      rw [hsame, String.ofList_toList] at hlowered
      cases scheme_of_fileBacked hresolves with
      | inl hposix =>
        rw [hlowered] at hposix
        simpa using hposix
      | inr hring =>
        -- the ring's schemes contain a character of neither spelled-out one
        rw [hlowered] at hring
        have hu : 'u' ∈ scheme.toList := by
          simp only [List.mem_cons, List.not_mem_nil, or_false] at hring
          rcases hring with rfl | rfl <;> decide
        exact absurd (hmem 'u' hu) (by decide)
    rw [strippedUri_append hspelled] at h
    exact ⟨hspelled, (strippedUri_eq_self_iff _).mp h⟩
  · intro h
    rw [strippedUri_append h.1]
    exact (strippedUri_eq_self_iff _).mpr h.2

/-- A plain absolute path behind a spelled-out scheme. -/
theorem resourcePath_eq_coreFile_iff_posix :
    resourcePath ("posix" ++ "://" ++ "/mnt/data") 3 = coreFile "/mnt/data" 3 ↔
      ("posix" = "posix" ∨ "posix" = "file") ∧
        containsSubstring "file://".toList "/mnt/data".toList = false ∧
        containsSubstring "posix://".toList "/mnt/data".toList = false :=
  resourcePath_eq_coreFile_iff "posix" "/mnt/data" (by decide) (Or.inl (by decide)) 3

/-- The address of a block device for the ring adapter becomes a relative path that starts
with the scheme. -/
theorem resourcePath_ring_scheme :
    AdapterFactory.getAdapterClass false "iouring:///dev/nvme0n1" = .ok .ioUring ∧
      resourcePath "iouring:///dev/nvme0n1" 0 = "./iouring:///dev/nvme0n1_core_0.dat" ∧
      resourcePath "iouring:///dev/nvme0n1" 0 ≠ coreFile "/dev/nvme0n1" 0 := by
  decide

end Steve.Orchestrator
