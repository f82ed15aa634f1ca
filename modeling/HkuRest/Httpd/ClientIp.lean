import HkuRest.Core.Trimming
import HkuRest.Httpd.HeaderNames

/-! Which address `getClientIp` answers, compared with the first address that the headers
name at all. The code looks at whole values when it chooses the header and at untrimmed
parts in lower case when it chooses the address. -/

namespace Hku

variable {own ips part token : Bytes} {request : Request}

/-- An address, and not an empty part or the word "unknown". -/
def namesAddress (part : Bytes) : Bool := part ≠ [] ∧ part.toLower ≠ unknownIp

namespace Request

/-- The first address of these headers, without surrounding blanks. -/
def firstAddress (request : Request) (names : List Bytes) : Option Bytes :=
  ((names.flatMap fun name => (request.getReqHeader name).splitOn 0x2c).map Bytes.trim).find? namesAddress

/-- What the client is known by: its first address in any of the headers, or else the peer's. -/
def namedClientIp (own : Bytes) (request : Request) : Bytes := (request.firstAddress ipHeaders).getD own

/-- The first value that is neither empty nor "unknown". -/
def readIpHeader (request : Request) : Option Bytes :=
  (ipHeaders.map request.getReqHeader).find? namesAddress

/-- The first of its parts that is an address before it is trimmed. -/
def readPart (request : Request) : Option Bytes :=
  request.readIpHeader.bind fun ips => (ips.splitOn 0x2c).find? namesAddress

/-- The part that is read has no blanks around it and no capital letters. A part of blanks or
of a padded "unknown" does no harm only where it spells the peer's address and no header
names another, and a list without addresses only where no other header names an address
that differs from the peer's. -/
def PlainAddress (own : Bytes) (request : Request) : Prop :=
  match request.readPart with
  | some part =>
      if namesAddress part.trim then part.trim = part ∧ part.toLower = part
      else request.firstAddress ipHeaders = none ∧ own = part.toLower
  | none => ∀ token, request.firstAddress ipHeaders = some token → token = own

end Request

theorem namesAddress_iff : namesAddress part = true ↔ part ≠ [] ∧ part.toLower ≠ unknownIp := by
  simp [namesAddress]

theorem namesAddress_toLower (part : Bytes) : namesAddress part.toLower = namesAddress part := by
  simp only [namesAddress, ne_eq, Bytes.toLower_eq_nil, Recasing.toLower_toLower]

theorem tells_toLower (ips : Bytes) : tells ips.toLower = namesAddress ips := by
  simp only [tells, namesAddress, not_or, Bytes.toLower_eq_nil, ne_eq]

theorem unknownIp_trim : unknownIp.trim = unknownIp := by decide

theorem trimmed_of_unnamed (unnamed : namesAddress part = false) : namesAddress part.trim = false := by
  rw [Bool.eq_false_iff, ne_eq, namesAddress_iff, not_and_not_right] at unnamed ⊢
  intro filled
  have held : part ≠ [] := by
    rintro rfl
    exact filled rfl
  rw [← Bytes.trim_toLower, unnamed held, unknownIp_trim]

theorem found_toLower (parts : List Bytes) :
    ((parts.map Bytes.toLower).find? fun part => part ≠ [] ∧ part ≠ unknownIp) =
      (parts.find? namesAddress).map Bytes.toLower := by
  rw [List.find?_map]
  congr 2
  funext part
  simp [namesAddress, Bytes.toLower_eq_nil]

theorem firstIp_toLower (own ips : Bytes) :
    firstIp own ips.toLower =
      (((ips.splitOn 0x2c).find? namesAddress).map Bytes.toLower).getD own := by
  rw [firstIp, Bytes.splitOn_toLower, found_toLower]

theorem getClientIp_readPart (own : Bytes) (request : Request) :
    request.getClientIp own true = (request.readPart.map Bytes.toLower).getD own := by
  have told : tells ∘ (fun name => (request.getReqHeader name).toLower) =
      namesAddress ∘ request.getReqHeader := funext fun name => tells_toLower _
  rw [getClientIp_eq, Request.readPart, Request.readIpHeader, List.find?_map, List.find?_map, told]
  cases ipHeaders.find? (namesAddress ∘ request.getReqHeader) with
  | none => rfl
  | some name =>
    simp only [Option.map_some, Option.getD_some, Option.bind_some]
    exact firstIp_toLower own _

theorem unnamed_part (unnamed : namesAddress ips = false) (member : part ∈ ips.splitOn 0x2c) :
    namesAddress part = false := by
  rw [← namesAddress_toLower]
  have lowered : part.toLower ∈ ips.toLower.splitOn 0x2c := by
    rw [Bytes.splitOn_toLower]
    exact List.mem_map_of_mem member
  rw [← namesAddress_toLower, Bool.eq_false_iff, ne_eq, namesAddress_iff, not_and_not_right,
    Recasing.toLower_toLower] at unnamed
  by_cases empty : ips.toLower = []
  · rw [empty, List.splitOn_nil, List.mem_singleton] at lowered
    rw [lowered]
    rfl
  · have single : List.splitOn (0x2c : UInt8) unknownIp = [unknownIp] := by decide
    rw [unnamed empty, single, List.mem_singleton] at lowered
    rw [lowered]
    decide

/-- All parts of all headers, in the order in which they are looked at. -/
theorem exists_before_readPart (found : request.readPart = some part) :
    ∃ front back, (ipHeaders.flatMap fun name => (request.getReqHeader name).splitOn 0x2c) =
      front ++ part :: back ∧ ∀ earlier ∈ front, namesAddress (Bytes.trim earlier) = false := by
  obtain ⟨ips, header, inside⟩ := Option.bind_eq_some_iff.mp found
  rw [Request.readIpHeader, List.find?_map, Option.map_eq_some_iff] at header
  obtain ⟨name, header, rfl⟩ := header
  obtain ⟨-, before, after, listed, passed⟩ := List.find?_eq_some_iff_append.mp header
  obtain ⟨-, front, back, parts, unnamed⟩ := List.find?_eq_some_iff_append.mp inside
  refine ⟨(before.flatMap fun name => (request.getReqHeader name).splitOn 0x2c) ++ front,
    back ++ after.flatMap fun name => (request.getReqHeader name).splitOn 0x2c, ?_, ?_⟩
  · rw [listed, List.flatMap_append, List.flatMap_cons, parts]
    simp only [List.append_assoc, List.cons_append]
  · intro earlier member
    apply trimmed_of_unnamed
    rcases List.mem_append.mp member with skipped | skipped
    · obtain ⟨other, known, held⟩ := List.mem_flatMap.mp skipped
      exact unnamed_part (by simpa using passed other known) held
    · simpa using unnamed earlier skipped

/-- Where the part that is read is an address when it is trimmed, it is the first one. -/
theorem firstAddress_of_readPart (found : request.readPart = some part)
    (named : namesAddress part.trim = true) : request.firstAddress ipHeaders = some part.trim := by
  obtain ⟨front, back, parts, unnamed⟩ := exists_before_readPart found
  rw [Request.firstAddress, parts, List.map_append, List.map_cons, List.find?_append,
    List.find?_eq_none.mpr, Option.none_or, List.find?_cons_of_pos named]
  intro earlier member
  obtain ⟨original, held, rfl⟩ := List.mem_map.mp member
  simp [unnamed original held]

theorem firstAddress_trimmed {names : List Bytes} (found : request.firstAddress names = some token) :
    namesAddress token = true ∧ token.trim = token := by
  refine ⟨List.find?_some found, ?_⟩
  obtain ⟨original, -, rfl⟩ := List.mem_map.mp (List.mem_of_find?_eq_some found)
  exact Bytes.trim_trim original

theorem toLower_eq_trim_iff : part.toLower = part.trim ↔ part.trim = part ∧ part.toLower = part := by
  constructor
  · intro same
    have full : part.trim = part :=
      Bytes.trim_eq_self (by rw [← same, Bytes.length_toLower])
    exact ⟨full, same.trans full⟩
  · rintro ⟨full, lower⟩
    rw [full, lower]

/-- The first address that the headers name is answered exactly if it is read as it is
written, or nothing else than the peer's address could be answered. -/
theorem getClientIp_iff (own : Bytes) (request : Request) :
    request.getClientIp own true = request.namedClientIp own ↔ request.PlainAddress own := by
  rw [getClientIp_readPart, Request.namedClientIp, Request.PlainAddress]
  cases found : request.readPart with
  | none =>
    cases named : request.firstAddress ipHeaders with
    | none => simp
    | some token => simp [eq_comm]
  | some part =>
    simp only [Option.map_some, Option.getD_some]
    cases named : namesAddress part.trim with
    | true =>
      rw [firstAddress_of_readPart found named, Option.getD_some, if_pos rfl]
      exact toLower_eq_trim_iff
    | false =>
      rw [if_neg Bool.false_ne_true]
      cases first : request.firstAddress ipHeaders with
      | none => simp [eq_comm]
      | some token =>
        have apart : part.toLower ≠ token := by
          rintro rfl
          obtain ⟨address, full⟩ := firstAddress_trimmed first
          rw [← full, Bytes.trim_toLower, namesAddress_toLower, named] at address
          cases address
        simp [apart]

/-- The list of a proxy that does not know the first of its clients. -/
theorem getClientIp_padded :
    ¬ ∀ (own : Bytes) (request : Request),
      request.getClientIp own true = request.namedClientIp own := by
  intro agrees
  have same := agrees [] ⟨[], [], 11,
    [(Bytes.ascii "X-Forwarded-For", Bytes.ascii "unknown, 1.2.3.4")], []⟩
  revert same
  decide

end Hku
