import HealthRelay.HealthCheck
import HealthRelay.Proofs.Http.Request

/-!
# What a key and an address can do to a check's request

A key is accepted by its bytes, and stands in the request as the value of one header. The header
block of a request that was built is known line by line (`request_sealed`), whatever key and address
it was built with, so neither can reach beyond its own line.
-/

namespace HealthRelay.HealthCheck

open Http Text

variable {a : Address} {check : HealthCheck} {r : Request}

/-! ## Keys -/

theorem isValue_bearer_iff {key : String} :
    Header.isValue (bearer key) = true ↔ ∀ b ∈ Utf8.encode key.toList, Header.IsFieldByte b := by
  have hscheme : "Bearer ".toList.all Header.isValueChar = true := by decide +kernel
  rw [← Header.isValue_iff, Header.isValue, bearer, String.toList_append, List.all_append, hscheme,
    Bool.true_and, Header.isValue]

theorem make_some {key : String} (h : Header.isValue (bearer key) = true) :
    make a (some key) = .ok ⟨a, some (bearer key)⟩ :=
  if_pos h

theorem make_eq_ok {key : Option String} (h : make a key = .ok check) :
    (∀ k ∈ key, Header.isValue (bearer k) = true) ∧ check = ⟨a, key.map bearer⟩ := by
  cases key with
  | none =>
    cases h
    exact ⟨by simp, rfl⟩
  | some k =>
    by_cases hk : Header.isValue (bearer k) = true
    · rw [make_some hk] at h
      cases h
      refine ⟨?_, rfl⟩
      simpa using hk
    · have hrefused : make a (some k) = .error .invalidApiKey := if_neg hk
      cases hrefused.symm.trans h

/-- A check is made without a key, and with any key that may stand in a header. -/
theorem exists_make_iff {key : Option String} :
    (∃ check, make a key = .ok check) ↔
      ∀ k ∈ key, ∀ b ∈ Utf8.encode k.toList, Header.IsFieldByte b := by
  simp only [← isValue_bearer_iff]
  refine ⟨fun ⟨check, h⟩ => (make_eq_ok h).1, fun h => ?_⟩
  cases key with
  | none => exact ⟨_, rfl⟩
  | some k => exact ⟨_, make_some (h k rfl)⟩

/-! ## Requests -/

/-- The request of a check without a key. -/
theorem request_none (a : Address) :
    (⟨a, none⟩ : HealthCheck).request =
      (Request.start .get a path).map fun r =>
        { r with headers := r.headers ++ [⟨"accept", "application/json"⟩] } := by
  have haccept : Header.isValue "application/json" = true := by decide +kernel
  unfold request
  cases Request.start .get a path with
  | error cause => rfl
  | ok r =>
    simp only [ok_bind, Request.withHeader_ok haccept]
    rfl

/-- A key adds one header, and changes nothing else. -/
theorem request_some {value : String} (h : Header.isValue value = true) (a : Address) :
    (⟨a, some value⟩ : HealthCheck).request =
      (⟨a, none⟩ : HealthCheck).request.map fun r =>
        { r with headers := r.headers ++ [⟨"authorization", value⟩] } := by
  have haccept : Header.isValue "application/json" = true := by decide +kernel
  unfold request
  cases Request.start .get a path with
  | error cause => rfl
  | ok r =>
    simp only [ok_bind, Request.withHeader_ok haccept, Request.withHeader_ok h]
    rfl

/-- A check's request as it was built. -/
theorem request_eq_ok (h : check.request = .ok r)
    (hauth : ∀ value ∈ check.authorization, Header.isValue value = true) :
    Uri.atAddress? check.address path = .ok r.uri ∧ Header.isValue check.address.text = true ∧
      r.address = check.address ∧
      r.headers = Request.opening check.address ++ ⟨"accept", "application/json"⟩ ::
        (check.authorization.map fun value => ⟨"authorization", value⟩).toList := by
  obtain ⟨a, authorization⟩ := check
  have hnone {r : Request} (h : (⟨a, none⟩ : HealthCheck).request = .ok r) :
      Uri.atAddress? a path = .ok r.uri ∧ Header.isValue a.text = true ∧ r.address = a ∧
        r.headers = Request.opening a ++ [⟨"accept", "application/json"⟩] := by
    rw [request_none] at h
    obtain ⟨first, hstart, rfl⟩ := map_eq_ok h
    obtain ⟨uri, huri, hhost, rfl⟩ := Request.start_eq_ok_iff.mp hstart
    exact ⟨huri, hhost, rfl, rfl⟩
  cases authorization with
  | none => exact hnone h
  | some value =>
    rw [request_some (hauth value rfl)] at h
    obtain ⟨first, hfirst, rfl⟩ := map_eq_ok h
    obtain ⟨huri, hhost, haddress, hheaders⟩ := hnone hfirst
    refine ⟨huri, hhost, haddress, ?_⟩
    rw [hheaders, List.append_assoc]
    rfl

/-! ## Header blocks -/

/-- The line that a key stands in. -/
def authorizationLine (key : String) : List UInt8 :=
  asciiBytes "authorization: Bearer " ++ Utf8.encode key.toList

theorem content_host (value : String) :
    Header.content ⟨"host", value⟩ = asciiBytes "host: " ++ Utf8.encode value.toList := by
  have hname : Utf8.encode "host".toList ++ asciiBytes ": " = asciiBytes "host: " := by
    decide +kernel
  rw [Header.content, hname]

theorem content_authorization (key : String) :
    Header.content ⟨"authorization", bearer key⟩ = authorizationLine key := by
  have hname : Utf8.encode "authorization".toList ++ asciiBytes ": " ++
      Utf8.encode "Bearer ".toList = asciiBytes "authorization: Bearer " := by decide +kernel
  rw [Header.content, bearer, String.toList_append, Utf8.encode_append, ← List.append_assoc, hname]
  rfl

/-- The lines of the headers that a check's request has. -/
theorem map_content (a : Address) (key : Option String) :
    (Request.opening a ++ ⟨"accept", "application/json"⟩ ::
        ((key.map bearer).map fun value => (⟨"authorization", value⟩ : Header)).toList).map
          Header.content =
      [asciiBytes "host: " ++ Utf8.encode a.text.toList, asciiBytes "user-agent: beacon/0.1.0",
        asciiBytes "accept: application/json"] ++ (key.map authorizationLine).toList := by
  have hagent : Header.content ⟨"user-agent", Request.userAgent⟩ =
      asciiBytes "user-agent: beacon/0.1.0" := by decide +kernel
  have haccept : Header.content ⟨"accept", "application/json"⟩ =
      asciiBytes "accept: application/json" := by decide +kernel
  cases key with
  | none => simp [Request.opening, content_host, hagent, haccept]
  | some k => simp [Request.opening, content_host, content_authorization, hagent, haccept]

/-- What a key and an address can do to a check's request. -/
structure IsSealed (a : Address) (key : Option String) : Prop where
  accepted : (∃ check, make a key = .ok check) ↔
    ∀ k ∈ key, ∀ b ∈ Utf8.encode k.toList, Header.IsFieldByte b
  /-- The header block is cut into these lines, and nothing follows the last one. -/
  lines : ∀ check r, make a key = .ok check → check.request = .ok r →
    splitBreaks r.headerBlock =
      [asciiBytes "host: " ++ Utf8.encode a.text.toList, asciiBytes "user-agent: beacon/0.1.0",
        asciiBytes "accept: application/json"] ++ (key.map authorizationLine).toList ++ [[]]
  /-- Another key makes the same request, but for the value of the last header. -/
  swapped : ∀ k k' check check', key = some k → make a (some k) = .ok check →
    make a (some k') = .ok check' →
      check'.request = check.request.map fun r =>
        { r with headers := r.headers.dropLast ++ [⟨"authorization", "Bearer " ++ k'⟩] }

/-- **Keys and addresses stay in their own lines.** -/
theorem request_sealed (a : Address) (key : Option String) : IsSealed a key where
  accepted := exists_make_iff
  lines := by
    intro check r hmake hr
    obtain ⟨hkey, rfl⟩ := make_eq_ok hmake
    have hauth : ∀ value ∈ key.map bearer, Header.isValue value = true := by
      simpa using hkey
    obtain ⟨-, hhost, -, hheaders⟩ := request_eq_ok hr hauth
    rw [splitBreaks_headerBlock, hheaders, map_content]
    -- every header has a plain name and a value that was checked
    intro header hheader
    rw [hheaders] at hheader
    rcases List.mem_append.mp hheader with hopening | hown
    · simp only [Request.opening, List.mem_cons, List.not_mem_nil, or_false] at hopening
      rcases hopening with rfl | rfl
      · exact Header.cr_notMem_content
          (show ascii '\r' ∉ Utf8.encode "host".toList by decide +kernel) hhost
      · exact Header.cr_notMem_content (by decide +kernel) (by decide +kernel)
    · rcases List.mem_cons.mp hown with rfl | hown
      · exact Header.cr_notMem_content (by decide +kernel) (by decide +kernel)
      · obtain ⟨value, hvalue, rfl⟩ := Option.map_eq_some_iff.mp (Option.mem_toList.mp hown)
        exact Header.cr_notMem_content
          (show ascii '\r' ∉ Utf8.encode "authorization".toList by decide +kernel)
          (hauth value hvalue)
  swapped := by
    intro k k' check check' hk hmake hmake'
    obtain ⟨hkey, rfl⟩ := make_eq_ok hmake
    obtain ⟨hkey', rfl⟩ := make_eq_ok hmake'
    simp only [Option.map_some, request_some (hkey k rfl), request_some (hkey' k' rfl)]
    cases (⟨a, none⟩ : HealthCheck).request with
    | error cause => rfl
    | ok r => simp [Except.map, bearer]

/-- A fragment is dropped from a URI unread, so it is the header that such a host fails in. -/
example : (⟨⟨"h#\r\nx: y", 80⟩, none⟩ : HealthCheck).request.toOption = none ∧
    (Uri.atAddress? ⟨"h#\r\nx: y", 80⟩ path).toOption = some ⟨"h", "/", none⟩ := by
  decide +kernel

end HealthRelay.HealthCheck
