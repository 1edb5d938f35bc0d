import HealthRelay.Delivery
import HealthRelay.Proofs.HealthCheck.Request

/-!
# One request, one endpoint

Probes and reports are sent by requests that are built for one address. `endpoint_agrees_iff` says
for which addresses all parts of such a request name the same endpoint: for all but those whose host
holds a character that ends the authority of a URI. Nothing keeps such hosts out where addresses are
read, so a request can be built that asks another authority for another path
(`endpoint_split_by_scheme`).
-/

namespace HealthRelay.Http

open Text

theorem statusUpdatePath_eq (id : SessionId) :
    id.statusUpdatePath.toList = "/api/v1/agent/status_update/".toList ++ id.text.toList :=
  String.toList_append

theorem statusUpdatePath_head (id : SessionId) : id.statusUpdatePath.toList.head? = some '/' := by
  have hroot : "/api/v1/agent/status_update/".toList.head? = some '/' := by decide +kernel
  rw [statusUpdatePath_eq, List.head?_append, hroot, Option.some_or]

theorem statusUpdatePath_fragment {id : SessionId} (h : '#' ∉ id.text.toList) :
    '#' ∉ id.statusUpdatePath.toList := by
  simp [statusUpdatePath_eq, h]

/-- A delivery's request as it was built. -/
theorem delivery_eq_ok {client : ManagementClient} {report : Report} {r : Request}
    (h : client.request report = .ok r) :
    Uri.atAddress? client.address report.sessionId.statusUpdatePath = .ok r.uri ∧
      r.address = client.address ∧
      r.headers = Request.opening client.address ++ [⟨"content-type", "application/json"⟩] := by
  unfold ManagementClient.request at h
  obtain ⟨first, hstart, h⟩ := bind_eq_ok h
  obtain ⟨uri, huri, -, rfl⟩ := Request.start_eq_ok_iff.mp hstart
  obtain ⟨second, hsecond, h⟩ := bind_eq_ok h
  obtain ⟨-, rfl⟩ := Request.withHeader_eq_ok hsecond
  cases h
  exact ⟨huri, rfl, rfl⟩

/-- Only the first header of a request bears the name of the host. -/
theorem filter_host {a : Address} {more : List Header} (h : ∀ header ∈ more, header.name ≠ "host") :
    (Request.opening a ++ more).filter (fun header => header.name == "host") =
      [⟨"host", a.text⟩] := by
  have hmore : more.filter (fun header => header.name == "host") = [] := by simpa using h
  rw [List.filter_append, hmore, List.append_nil]
  simp [Request.opening]

/-- **A request names one endpoint exactly if no authority ends in the host of its address**: every
request for a path, and so the requests of probes and of reports. -/
theorem endpoint_agrees_iff (a : Address) :
    (∀ (method : Method) (path : String) (r : Request), path.toList.head? = some '/' →
      '#' ∉ path.toList → Request.start method a path = .ok r →
        (r.Names a path ↔ Uri.IsWhole a.host)) ∧
    (∀ (key : Option String) (check : HealthCheck) (r : Request),
      HealthCheck.make a key = .ok check → check.request = .ok r →
        (r.Names a "/health" ↔ Uri.IsWhole a.host)) ∧
    ∀ (report : Report) (r : Request), '#' ∉ report.sessionId.text.toList →
      (⟨a⟩ : ManagementClient).request report = .ok r →
        (r.Names a ("/api/v1/agent/status_update/" ++ report.sessionId.text) ↔
          Uri.IsWhole a.host) := by
  refine ⟨?_, ?_, ?_⟩
  · intro method path r hpath hfragment hr
    obtain ⟨uri, huri, -, rfl⟩ := Request.start_eq_ok_iff.mp hr
    refine Request.names_iff huri rfl ?_ hpath hfragment
    rw [← List.append_nil (Request.opening a)]
    exact filter_host (by simp)
  · intro key check r hmake hr
    obtain ⟨hkey, rfl⟩ := HealthCheck.make_eq_ok hmake
    obtain ⟨huri, -, haddress, hheaders⟩ := HealthCheck.request_eq_ok hr (by simpa using hkey)
    refine Request.names_iff huri haddress ?_ (by decide +kernel) (by decide +kernel)
    rw [hheaders]
    exact filter_host (by simp)
  · intro report r hid hr
    obtain ⟨huri, haddress, hheaders⟩ := delivery_eq_ok hr
    refine Request.names_iff huri haddress ?_ (statusUpdatePath_head _)
      (statusUpdatePath_fragment hid)
    rw [hheaders]
    exact filter_host (by simp)

/-- An address with a scheme before its host is read, and splits the endpoint: the URI names another
authority than the `host` header, and another path than the one that was asked for. -/
theorem endpoint_split_by_scheme : ∃ a r,
    Address.ofText? "http://localhost:8080" = .ok a ∧ Request.start .get a "/health" = .ok r ∧
      r.headers.head? = some ⟨"host", "http://localhost:8080"⟩ ∧ r.uri.authority = "http:" ∧
        r.uri.pathAndQuery = "//localhost:8080/health" ∧ ¬ r.Names a "/health" := by
  refine ⟨⟨"http://localhost", 8080⟩, ⟨.get, ⟨"http://localhost", 8080⟩,
    ⟨"http:", "//localhost:8080/health", none⟩, Request.opening ⟨"http://localhost", 8080⟩, []⟩,
    ok_of_toOption (by decide +kernel), ok_of_toOption (by decide +kernel), by decide +kernel, rfl,
    rfl, ?_⟩
  intro h
  have hpath : "//localhost:8080/health" = "/health" := h.pathAndQuery
  exact absurd hpath (by decide)

end HealthRelay.Http
