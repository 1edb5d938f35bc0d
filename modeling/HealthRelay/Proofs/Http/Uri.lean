import Mathlib.Data.List.TakeWhile
import HealthRelay.Http.Uri
import HealthRelay.Proofs.Address
import HealthRelay.Proofs.Except

/-!
# What the URI of an address names

The URI is read back from the text of an address with a path after it. Its authority goes as far as
the first character that ends one, so it is the whole address exactly if there is no such character
in the host (`authority_eq_iff`). The path is then read back as it was given, unless it holds a
fragment (`pathAndQuery_eq`).
-/

namespace HealthRelay.Http.Uri

/-- A host in which no authority ends. -/
def IsWhole (host : String) : Prop :=
  ∀ c ∈ host.toList, c ≠ '/' ∧ c ≠ '?' ∧ c ≠ '#'

theorem endsAuthority_eq_false_iff {c : Char} :
    endsAuthority c = false ↔ c ≠ '/' ∧ c ≠ '?' ∧ c ≠ '#' := by
  simp [endsAuthority, and_assoc]

theorem endsAuthority_digitChar : ∀ d < 10, endsAuthority (Text.digitChar d) = false := by decide

variable {a : Address} {path : String} {u : Uri}

/-- The port and its colon never end an authority, so the host decides. -/
theorem isWhole_iff : IsWhole a.host ↔ ∀ c ∈ a.chars, endsAuthority c = false := by
  simp only [IsWhole, ← endsAuthority_eq_false_iff]
  refine ⟨fun h c hc => ?_, fun h c hc => h c (List.mem_append_left _ hc)⟩
  rcases List.mem_append.mp hc with hc | hc
  · exact h c hc
  · rcases List.mem_cons.mp hc with rfl | hc
    · decide
    · obtain ⟨d, hd, rfl⟩ := Text.mem_decimal _ c hc
      exact endsAuthority_digitChar d hd

/-- The parts of a URI that was read. -/
theorem ofChars?_parts {cs : List Char} (h : ofChars? cs = .ok u) :
    u.authority = String.ofList (cs.takeWhile fun c => !endsAuthority c) ∧
      readTarget (cs.dropWhile fun c => !endsAuthority c) = .ok (u.path, u.query) := by
  simp only [ofChars?] at h
  split at h
  · cases h
  · obtain ⟨⟨path, query⟩, htarget, rfl⟩ := map_eq_ok h
    exact ⟨rfl, htarget⟩

theorem atAddress?_parts (h : atAddress? a path = .ok u) :
    u.authority = String.ofList ((a.chars ++ path.toList).takeWhile fun c => !endsAuthority c) ∧
      readTarget ((a.chars ++ path.toList).dropWhile fun c => !endsAuthority c) =
        .ok (u.path, u.query) := by
  simp only [atAddress?] at h
  split at h
  · cases h
  · exact ofChars?_parts h

/-! ## The authority -/

/-- The authority is a part of the address and ends where the path begins at the latest. -/
theorem takeWhile_address (hpath : path.toList.head? = some '/') :
    (a.chars ++ path.toList).takeWhile (fun c => !endsAuthority c) =
      a.chars.takeWhile fun c => !endsAuthority c := by
  obtain ⟨rest, hrest⟩ := List.head?_eq_some_iff.mp hpath
  rw [hrest, List.takeWhile_append]
  split
  · rename_i hlength
    rw [List.takeWhile_cons_of_neg (by decide), List.append_nil,
      (List.takeWhile_prefix _).eq_of_length hlength]
  · rfl

/-- **The authority is the address exactly if none ends in the host.** -/
theorem authority_eq_iff (h : atAddress? a path = .ok u) (hpath : path.toList.head? = some '/') :
    u.authority = a.text ↔ IsWhole a.host := by
  rw [(atAddress?_parts h).1, takeWhile_address hpath, Address.text, String.ofList_inj, isWhole_iff]
  rw [List.takeWhile_eq_self_iff]
  simp only [Bool.not_eq_true']

/-! ## The path and the query -/

theorem dropWhile_address (hwhole : IsWhole a.host) (hpath : path.toList.head? = some '/') :
    (a.chars ++ path.toList).dropWhile (fun c => !endsAuthority c) = path.toList := by
  have hall : ∀ c ∈ a.chars, (!endsAuthority c) = true := by simpa using isWhole_iff.mp hwhole
  obtain ⟨rest, hrest⟩ := List.head?_eq_some_iff.mp hpath
  rw [List.dropWhile_append_of_pos hall, hrest]
  exact List.dropWhile_cons_of_neg (by decide)

theorem readQuery_eq_ok {cs : List Char} {query : String} (h : readQuery cs = .ok query)
    (hfragment : '#' ∉ cs) : query = String.ofList cs := by
  have hwhole : cs.takeWhile (· != '#') = cs := by
    rw [List.takeWhile_eq_self_iff]
    intro c hc
    simpa using ne_of_mem_of_not_mem hc hfragment
  simp only [readQuery, hwhole] at h
  split at h
  · exact (Except.ok.inj h).symm
  · cases h

/-- What is read as a path and a query is all there is, where there is no fragment. -/
theorem readTarget_eq_ok {cs : List Char} (h : readTarget cs = .ok (u.path, u.query))
    (hpath : cs.head? = some '/') (hfragment : '#' ∉ cs) : u.pathAndQuery = String.ofList cs := by
  obtain ⟨tail, rfl⟩ := List.head?_eq_some_iff.mp hpath
  have hall := List.takeWhile_append_dropWhile (p := fun c => c != '?' && c != '#') (l := '/' :: tail)
  have hstop := List.head?_dropWhile_not (fun c => c != '?' && c != '#') ('/' :: tail)
  have hsome : ('/' :: tail).takeWhile (fun c => c != '?' && c != '#') ≠ [] := by simp
  simp only [readTarget] at h
  generalize ('/' :: tail).takeWhile (fun c => c != '?' && c != '#') = path at h hall hsome
  generalize ('/' :: tail).dropWhile (fun c => c != '?' && c != '#') = rest at h hall hstop
  split at h
  · simp only [List.isEmpty_eq_false_iff.mpr hsome, Bool.false_eq_true, ↓reduceIte] at h
    split at h
    · rename_i query
      obtain ⟨text, hquery, heq⟩ := map_eq_ok h
      have hnone : '#' ∉ query := fun hmem => hfragment (by simp [← hall, hmem])
      simp only [pathAndQuery, ← (Prod.mk.inj heq).1, ← (Prod.mk.inj heq).2,
        readQuery_eq_ok hquery hnone, ← hall, ← String.toList_inj, String.toList_append,
        String.toList_ofList, List.append_assoc]
      rfl
    · -- without a question mark nothing follows the path: a fragment is ruled out
      rename_i hnone
      have hnil : rest = [] := by
        cases rest with
        | nil => rfl
        | cons c rest =>
          have hend : c = '?' ∨ c = '#' := by simpa [Classical.or_iff_not_imp_left] using hstop
          rcases hend with rfl | rfl
          · exact absurd rfl (hnone rest)
          · exact absurd (by simp [← hall]) hfragment
      obtain ⟨heq, hquery⟩ := Prod.mk.inj (Except.ok.inj h)
      simp only [pathAndQuery, ← heq, ← hquery, ← hall, hnil, List.append_nil]
  · cases h

/-- **The path and the query are read back as they were given**, if the authority is whole and there
is no fragment. -/
theorem pathAndQuery_eq (h : atAddress? a path = .ok u) (hwhole : IsWhole a.host)
    (hpath : path.toList.head? = some '/') (hfragment : '#' ∉ path.toList) :
    u.pathAndQuery = path := by
  have htarget := (atAddress?_parts h).2
  rw [dropWhile_address hwhole hpath] at htarget
  rw [readTarget_eq_ok htarget hpath hfragment, String.ofList_toList]

end HealthRelay.Http.Uri
