import AccessLayer.Library.Json

/-
  Signed cursors (`src/utils/cursor.utils.ts`): the JSON text of
  a payload in base64, and its checksum after a dot.

  Main declaration: `decodeCursor_encodeCursor`
-/

-- Encoding
----

namespace AccessLayer

namespace Utils

/- The message that a caller is shown. -/
structure CursorChecksumError where
  message : String

/- The secret, and the function of the `crypto` module. -/
structure CursorKey where
  APP_SECRET : String
  hmacSha256 : List UInt8 → List UInt8 → List UInt8
  length_hmacSha256 : ∀ secret data, (hmacSha256 secret data).length = 32

variable (env : CursorKey)

/- Texts are lists of characters up to the finished cursor. -/
def generateCursorChecksum (payload : List Char) : List Char :=
  Hex.encode (env.hmacSha256 (Utf8.encode env.APP_SECRET.toList) (Utf8.encode payload))

/- The payload, a point and the checksum. -/
def encodeCursor (payload : Json) : String :=
  let payloadStr := payload.stringify
  let base64Payload := Base64.encode (Utf8.encode payloadStr)
  let checksum := generateCursorChecksum env base64Payload
  String.ofList (base64Payload ++ '.' :: checksum)

-- Decoding
----

/- A cursor without a dot is not signed. -/
def verifyChecksum (base64Payload : List Char) (providedChecksum : Option (List Char)) :
    Except CursorChecksumError Unit :=
  match providedChecksum with
  | none => .ok ()
  | some providedChecksum =>
    if providedChecksum = [] then
      .error
        { message := "Cursor checksum cannot be empty if signature " ++ "separator is present" }
    else
      let expectedChecksum := generateCursorChecksum env base64Payload
      let expectedBuffer := Hex.decode expectedChecksum
      let providedBuffer := Hex.decode providedChecksum
      if expectedBuffer ≠ providedBuffer then
        .error { message := "Cursor checksum mismatch" }
      else .ok ()

/- Any failure is answered alike. -/
def parsePayload (base64Payload : List Char) : Except CursorChecksumError Json :=
  let payloadStr := Utf8.decode (Base64.decode base64Payload)
  match Json.parse payloadStr with
  | some payload => .ok payload
  | none => .error { message := "Failed to parse cursor JSON payload" }

/- The checksum is verified before anything is parsed. -/
def decodeCursor (cursor : String) : Except CursorChecksumError Json :=
  if cursor = "" then
    .error { message := "Cursor must be a provided string" }
  else
    let parts := cursor.toList.splitOn '.'
    if 2 < parts.length then
      .error { message := "Invalid cursor format. Expected " ++ "base64payload.checksum" }
    else
      let base64Payload := parts.headD []
      if base64Payload = [] then
        .error { message := "Cursor payload cannot be empty" }
      else
        (verifyChecksum env base64Payload parts[1]?).bind fun _ => parsePayload base64Payload

-- Round Trip
----

variable {env : CursorKey}

/- Neither part of a cursor has a dot. -/
theorem dot_not_mem_base64 (data : List UInt8) : '.' ∉ Base64.encode data := by
  intro hDot
  exact Base64.value_of_mem_encode hDot rfl

/- Checksums are hexadecimal. -/
theorem dot_not_mem_checksum (payload : List Char) : '.' ∉ generateCursorChecksum env payload := by
  intro hDot
  exact Hex.value_of_mem_encode hDot rfl

theorem generateCursorChecksum_ne_nil (payload : List Char) :
    generateCursorChecksum env payload ≠ [] := by
  intro hNil
  have hLength := congrArg List.length hNil
  rw [generateCursorChecksum, Hex.length_encode, env.length_hmacSha256] at hLength
  cases hLength

theorem base64_ne_nil (payload : Json) : Base64.encode (Utf8.encode payload.stringify) ≠ [] := by
  intro hNil
  have hBytes := Base64.encode_eq_nil_iff.mp hNil
  have hText : payload.stringify = [] := by
    rw [← Utf8.decode_encode payload.stringify, hBytes]
    rfl
  have hLength := payload.length_stringify_pos
  rw [hText] at hLength
  cases hLength

/- The checksum that was made is accepted. -/
theorem verifyChecksum_generated (base64Payload : List Char) :
    verifyChecksum env base64Payload (some (generateCursorChecksum env base64Payload)) =
      .ok () := by
  rw [verifyChecksum, if_neg (generateCursorChecksum_ne_nil _)]
  exact if_neg (not_not.mpr rfl)

/- The encodings are inverted one by one. -/
theorem parsePayload_base64 (payload : Json) :
    parsePayload (Base64.encode (Utf8.encode payload.stringify)) = .ok payload := by
  unfold parsePayload
  rw [Base64.decode_encode, Utf8.decode_encode]
  simp only [Json.parse_stringify]

theorem encodeCursor_ne_empty (payload : Json) : encodeCursor env payload ≠ "" := by
  intro hEmpty
  have hText := congrArg String.toList hEmpty
  rw [encodeCursor, String.toList_ofList] at hText
  exact List.append_ne_nil_of_right_ne_nil _ (by simp) hText

/- A cursor decodes to what it was made of. -/
theorem decodeCursor_encodeCursor (payload : Json) :
    decodeCursor env (encodeCursor env payload) = .ok payload := by
  have hParts : (encodeCursor env payload).toList.splitOn '.' =
      [Base64.encode (Utf8.encode payload.stringify), generateCursorChecksum env
        (Base64.encode (Utf8.encode payload.stringify))] := by
    rw [encodeCursor, String.toList_ofList, List.splitOn_append_cons_self_of_not_mem
      (dot_not_mem_base64 _), List.splitOn_eq_singleton (dot_not_mem_checksum _)]
  rw [decodeCursor, if_neg (encodeCursor_ne_empty payload)]
  simp only [hParts]
  rw [if_neg (by simp), List.headD_cons, if_neg (base64_ne_nil payload)]
  simp only [List.getElem?_cons_succ, List.getElem?_cons_zero]
  rw [verifyChecksum_generated]
  exact parsePayload_base64 payload

end Utils

end AccessLayer
