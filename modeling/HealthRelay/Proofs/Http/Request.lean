import HealthRelay.Http.Request
import HealthRelay.Proofs.Http.Uri
import HealthRelay.Proofs.Text.Utf8

/-!
# What a built request says

A request that was built names its address in its URI, in its `host` header and for its connection.
The three agree exactly if the host does not end the URI's authority early (`names_iff`).

The values of headers hold no control bytes but tabs (`isValue_iff`), so the lines of a header block
are the headers that it was made of, one each (`splitBreaks_headerBlock`).
-/

namespace HealthRelay.Http

open Text

/-! ## Steps of the builder -/

namespace Request

variable {r r' : Request} {a : Address} {path : String}

theorem withHeader_ok {value : String} (h : Header.isValue value = true) (r : Request)
    (name : String) :
    r.withHeader name value = .ok { r with headers := r.headers ++ [⟨name, value⟩] } :=
  if_pos h

theorem withHeader_eq_ok {name value : String} (h : r.withHeader name value = .ok r') :
    Header.isValue value = true ∧ r' = { r with headers := r.headers ++ [⟨name, value⟩] } := by
  unfold withHeader at h
  split at h
  · exact ⟨‹_›, (Except.ok.inj h).symm⟩
  · cases h

/-- The headers that every request begins with. -/
def opening (a : Address) : List Header :=
  [⟨"host", a.text⟩, ⟨"user-agent", userAgent⟩]

/-- A request is started if the URI and the `host` header can take the address. -/
theorem start_eq_ok_iff {method : Method} :
    start method a path = .ok r ↔ ∃ uri, Uri.atAddress? a path = .ok uri ∧
      Header.isValue a.text = true ∧ r = ⟨method, a, uri, opening a, []⟩ := by
  unfold start
  cases Uri.atAddress? a path with
  | error cause => simp
  | ok uri =>
    constructor
    · intro h
      obtain ⟨first, hfirst, h⟩ := bind_eq_ok h
      obtain ⟨hhost, rfl⟩ := withHeader_eq_ok hfirst
      obtain ⟨-, rfl⟩ := withHeader_eq_ok h
      exact ⟨uri, rfl, hhost, rfl⟩
    · rintro ⟨_, huri, hhost, rfl⟩
      cases huri
      have hagent : Header.isValue userAgent = true := by decide +kernel
      simp only [withHeader_ok hhost, ok_bind, withHeader_ok hagent]
      rfl

/-! ## The address of a request -/

/-- The URI, the `host` header and the connection of a request all name the address, and the URI
asks for the path. -/
structure Names (r : Request) (a : Address) (path : String) : Prop where
  authority : r.uri.authority = a.text
  host : (r.headers.filter fun h => h.name == "host").map (·.value) = [a.text]
  connection : r.address.text = a.text
  pathAndQuery : r.uri.pathAndQuery = path

/-- **A request that was built for an address and a path names them exactly if the authority of its
URI does not end in the host.** -/
theorem names_iff (huri : Uri.atAddress? a path = .ok r.uri) (haddress : r.address = a)
    (hhost : (r.headers.filter fun h => h.name == "host") = [⟨"host", a.text⟩])
    (hpath : path.toList.head? = some '/') (hfragment : '#' ∉ path.toList) :
    r.Names a path ↔ Uri.IsWhole a.host := by
  constructor
  · intro h
    exact (Uri.authority_eq_iff huri hpath).mp h.authority
  · intro hwhole
    exact {
      authority := (Uri.authority_eq_iff huri hpath).mpr hwhole
      host := by rw [hhost]; rfl
      connection := by rw [haddress]
      pathAndQuery := Uri.pathAndQuery_eq huri hwhole hpath hfragment }

end Request

/-! ## Header blocks -/

namespace Header

/-- A byte that may stand in a header's value: a tab, or no control byte. -/
def IsFieldByte (b : UInt8) : Prop :=
  b.toNat = 0x09 ∨ 0x20 ≤ b.toNat ∧ b.toNat ≤ 0x7E ∨ 0x80 ≤ b.toNat

theorem isValueChar_iff {c : Char} :
    isValueChar c = true ↔ ∀ b ∈ Utf8.encodeChar c, IsFieldByte b := by
  have htab : c = '\t' ↔ c.toNat = 0x09 := Char.toNat_inj.symm
  by_cases hascii : c.toNat < 0x80
  · have hbyte : (ascii c).toNat = c.toNat := Utf8.toNat_byte (by omega)
    simp only [Utf8.encodeChar_ascii hascii, List.mem_singleton, forall_eq, IsFieldByte, hbyte,
      isValueChar, Bool.or_eq_true, beq_iff_eq, decide_eq_true_eq, htab]
    omega
  · have hhigh := Utf8.encodeChar_high (Nat.le_of_not_lt hascii)
    refine iff_of_true ?_ fun b hb => .inr (.inr (hhigh b hb))
    simp only [isValueChar, Bool.or_eq_true, decide_eq_true_eq]
    omega

/-- **A text may be a header's value exactly if all of its bytes may stand in one.** -/
theorem isValue_iff {s : String} :
    isValue s = true ↔ ∀ b ∈ Utf8.encode s.toList, IsFieldByte b := by
  simp only [isValue, List.all_eq_true, isValueChar_iff, Utf8.encode, List.mem_flatMap]
  constructor
  · rintro h b ⟨c, hc, hb⟩
    exact h c hc b hb
  · intro h c hc b hb
    exact h b ⟨c, hc, hb⟩

/-- The line of a header without the break that ends it. -/
def content (h : Header) : List UInt8 :=
  Utf8.encode h.name.toList ++ asciiBytes ": " ++ Utf8.encode h.value.toList

theorem line_eq (h : Header) : h.line = h.content ++ asciiBytes "\r\n" := by
  have hbreak : Utf8.encode ['\r', '\n'] = asciiBytes "\r\n" := by decide
  have hcolon : Utf8.encode [':', ' '] = asciiBytes ": " := by decide
  have hchars : h.name.toList ++ ':' :: ' ' :: h.value.toList ++ ['\r', '\n'] =
      h.name.toList ++ ([':', ' '] ++ (h.value.toList ++ ['\r', '\n'])) := by simp
  rw [line, hchars, Utf8.encode_append, Utf8.encode_append, Utf8.encode_append, hbreak, hcolon,
    content, List.append_assoc, List.append_assoc]

theorem cr_notMem_content {h : Header} (hname : ascii '\r' ∉ Utf8.encode h.name.toList)
    (hvalue : isValue h.value = true) : ascii '\r' ∉ h.content := by
  have hcolon : ascii '\r' ∉ asciiBytes ": " := by decide
  have hfield : ascii '\r' ∉ Utf8.encode h.value.toList := by
    intro hmem
    have hbyte := isValue_iff.mp hvalue _ hmem
    have hcr : (ascii '\r').toNat = 0x0D := rfl
    rw [IsFieldByte, hcr] at hbyte
    omega
  simp [content, hname, hcolon, hfield]

end Header

/-- What stands between the line breaks of a block of bytes, with what follows the last one. -/
def splitBreaks : List UInt8 → List (List UInt8)
  | [] => [[]]
  | [b] => [[b]]
  | b :: c :: rest =>
    if b = ascii '\r' ∧ c = ascii '\n' then [] :: splitBreaks rest
    else (splitBreaks (c :: rest)).modifyHead (b :: ·)

theorem splitBreaks_break (rest : List UInt8) :
    splitBreaks (asciiBytes "\r\n" ++ rest) = [] :: splitBreaks rest := by
  have hbreak : asciiBytes "\r\n" = [ascii '\r', ascii '\n'] := by decide
  rw [hbreak, List.cons_append, List.singleton_append, splitBreaks, if_pos ⟨rfl, rfl⟩]

theorem splitBreaks_cons {b : UInt8} (h : b ≠ ascii '\r') {bs : List UInt8} (hbs : bs ≠ []) :
    splitBreaks (b :: bs) = (splitBreaks bs).modifyHead (b :: ·) := by
  obtain ⟨c, rest, rfl⟩ := List.exists_cons_of_ne_nil hbs
  rw [splitBreaks, if_neg fun hbreak => h hbreak.1]

/-- A line without a carriage return goes as far as the break after it. -/
theorem splitBreaks_line {line : List UInt8} (h : ascii '\r' ∉ line) (rest : List UInt8) :
    splitBreaks (line ++ asciiBytes "\r\n" ++ rest) = line :: splitBreaks rest := by
  induction line with
  | nil => exact splitBreaks_break rest
  | cons b line ih =>
    obtain ⟨hb, hline⟩ := not_or.mp (mt List.mem_cons.mpr h)
    have hmore : line ++ asciiBytes "\r\n" ++ rest ≠ [] := by simp [asciiBytes]
    rw [List.cons_append, List.cons_append, splitBreaks_cons (Ne.symm hb) hmore, ih hline]
    rfl

/-- **The lines of a header block are its headers**, one each. -/
theorem splitBreaks_headerBlock {r : Request}
    (h : ∀ header ∈ r.headers, ascii '\r' ∉ header.content) :
    splitBreaks r.headerBlock = r.headers.map Header.content ++ [[]] := by
  unfold Request.headerBlock
  generalize r.headers = headers at h
  induction headers with
  | nil => rfl
  | cons header headers ih =>
    rw [List.flatMap_cons, Header.line_eq, splitBreaks_line (h header List.mem_cons_self),
      ih fun other hother => h other (List.mem_cons_of_mem _ hother)]
    rfl

end HealthRelay.Http
