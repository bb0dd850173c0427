import Etre.Go

/-! The Go client of the Etre API, `entity_client.go`, over an abstract server and JSON codec.

    `entityClient.do` is the client's only contact with the world: it sends a request to
    `addr + API_ROOT + endpoint` and returns a transport error or the status code and body. Here it is a
    field `send` of the client, so every theorem holds for every server. The JSON encoding of entities and the
    decoding of bodies are likewise left abstract (`Codec`). An entity is a map of labels; only the meta
    labels `_id` and `_type` are read.

    `UpdateOne`, `DeleteOne` and `DeleteLabel` return `wr[0]` from the write results without checking that
    there is one: a successful response whose body decodes to an empty list makes them panic
    (`single_writes_panic_on_empty_result`). `Sends op req` says that a call asks the server about `req`
    alone. `Query` refuses an empty query, and otherwise chooses between `GET` and `POST` on the length of the
    raw query, before `url.QueryEscape` can triple it (`query_gets_long_escaped_url`): the escaped query of a
    `GET` is at most 5997 bytes (`query_spec`). `Query`, `Update` and `Delete` put the escaped query after the
    `?` of the URL they send, where it has only kept characters, `+` and `%`, and `url.QueryUnescape` gives
    back its bytes (`query_urls_unescape`). -/

namespace Etre.Client
open Etre.Go

/-! ### `url.QueryEscape` -/

/-- The characters `url.QueryEscape` keeps: ASCII letters and digits and `-_.~`. -/
def unreserved (ch : Char) : Bool := ch.isAlphanum || ch == '-' || ch == '_' || ch == '.' || ch == '~'

/-- An upper-case hexadecimal digit. -/
def hexDigit (n : Nat) : Char := if n < 10 then Char.ofNat (48 + n) else Char.ofNat (55 + n)

/-- `%XX` for one byte. -/
def percentByte (b : UInt8) : List Char := ['%', hexDigit (b.toNat / 16), hexDigit (b.toNat % 16)]

/-- One character escaped: kept, a space as `+`, anything else as `%XX` for each byte of its UTF-8 form. -/
def escapeChar (ch : Char) : List Char :=
  if unreserved ch then [ch]
  else if ch = ' ' then ['+']
  else (String.utf8EncodeChar ch).flatMap percentByte

/-- `url.QueryEscape`, on the UTF-8 bytes of the string, one character at a time. -/
def queryEscape (s : String) : String := ⟨s.data.flatMap escapeChar⟩

/-- `len(s)`: the number of bytes of the UTF-8 form. -/
def goLen (s : String) : Nat := s.utf8ByteSize

theorem utf8ByteSize_go_append : ∀ a b : List Char,
    String.utf8ByteSize.go (a ++ b) = String.utf8ByteSize.go a + String.utf8ByteSize.go b
  | [], b => by simp [String.utf8ByteSize.go]
  | c :: a, b => by
    simp only [List.cons_append, String.utf8ByteSize.go, List.append_eq, utf8ByteSize_go_append a b]
    omega

theorem hexDigit_utf8Size : ∀ n < 16, (hexDigit n).utf8Size = 1 := by decide

theorem percentByte_size (b : UInt8) : String.utf8ByteSize.go (percentByte b) = 3 := by
  have hb : b.toNat < 256 := b.val.isLt
  simp only [percentByte, String.utf8ByteSize.go, hexDigit_utf8Size _ (by omega : b.toNat / 16 < 16),
    hexDigit_utf8Size _ (by omega : b.toNat % 16 < 16)]
  rfl

theorem flatMap_percentByte_size : ∀ l : List UInt8, String.utf8ByteSize.go (l.flatMap percentByte) = 3 * l.length
  | [] => rfl
  | b :: l => by
    rw [List.flatMap_cons, utf8ByteSize_go_append, percentByte_size, flatMap_percentByte_size l, List.length_cons]
    omega

/-- An escaped character takes at most three bytes per byte of the character. -/
theorem escapeChar_size_le (ch : Char) : String.utf8ByteSize.go (escapeChar ch) ≤ 3 * ch.utf8Size := by
  have := Char.utf8Size_pos ch
  unfold escapeChar
  split_ifs
  · simp only [String.utf8ByteSize.go]; omega
  · simp only [String.utf8ByteSize.go, show ('+').utf8Size = 1 from rfl]; omega
  · rw [flatMap_percentByte_size, String.length_utf8EncodeChar]

/-- `url.QueryEscape` at most triples the length of a string. -/
theorem goLen_queryEscape_le (s : String) : goLen (queryEscape s) ≤ 3 * goLen s := by
  obtain ⟨l⟩ := s
  show String.utf8ByteSize.go (l.flatMap escapeChar) ≤ 3 * String.utf8ByteSize.go l
  induction l with
  | nil => exact le_refl 0
  | cons ch l ih =>
    rw [List.flatMap_cons, utf8ByteSize_go_append]
    simp only [String.utf8ByteSize.go]
    have := escapeChar_size_le ch
    omega

theorem goLen_replicate (n : Nat) (ch : Char) : goLen ⟨List.replicate n ch⟩ = n * ch.utf8Size := by
  show String.utf8ByteSize.go (List.replicate n ch) = _
  induction n with
  | zero => simp [String.utf8ByteSize.go]
  | succ n ih => rw [List.replicate_succ, String.utf8ByteSize.go, ih, Nat.succ_mul]

theorem goLen_queryEscape_replicate (n : Nat) (ch : Char) :
    goLen (queryEscape ⟨List.replicate n ch⟩) = n * String.utf8ByteSize.go (escapeChar ch) := by
  show String.utf8ByteSize.go ((List.replicate n ch).flatMap escapeChar) = _
  induction n with
  | zero => simp [String.utf8ByteSize.go]
  | succ n ih => rw [List.replicate_succ, List.flatMap_cons, utf8ByteSize_go_append, ih, Nat.succ_mul]; omega

theorem hexDigit_unreserved : ∀ n < 16, unreserved (hexDigit n) = true := by decide

/-- What `url.QueryEscape` writes: kept characters, `+` and `%`. -/
theorem mem_escapeChar {ch ch' : Char} (h : ch' ∈ escapeChar ch) :
    unreserved ch' = true ∨ ch' = '+' ∨ ch' = '%' := by
  unfold escapeChar at h
  split_ifs at h with hu
  · rw [List.mem_singleton.mp h]
    exact .inl hu
  · exact .inr (.inl (List.mem_singleton.mp h))
  · obtain ⟨b, -, hb⟩ := List.mem_flatMap.mp h
    have : b.toNat < 256 := b.val.isLt
    simp only [percentByte, List.mem_cons, List.mem_singleton, List.not_mem_nil, or_false] at hb
    rcases hb with rfl | rfl | rfl
    · exact .inr (.inr rfl)
    · exact .inl (hexDigit_unreserved _ (by omega))
    · exact .inl (hexDigit_unreserved _ (by omega))

/-! ### `url.QueryUnescape` -/

/-- `unhex` of a character `ishex` accepts; `none` for any other. -/
def unhex (ch : Char) : Option Nat :=
  if '0' ≤ ch ∧ ch ≤ '9' then some (ch.toNat - '0'.toNat)
  else if 'a' ≤ ch ∧ ch ≤ 'f' then some (ch.toNat - 'a'.toNat + 10)
  else if 'A' ≤ ch ∧ ch ≤ 'F' then some (ch.toNat - 'A'.toNat + 10)
  else none

/-- `url.QueryUnescape`, Go's inverse of `url.QueryEscape`: `%XX` is the byte with hex digits `XX`, `+` a
    space, any other character its own UTF-8 bytes; a `%` without two hex digits after it is an error. -/
def queryUnescape : List Char → Option (List UInt8)
  | [] => some []
  | ch :: rest =>
    if ch = '%' then
      match rest with
      | a :: b :: rest =>
        (unhex a).bind fun hi => (unhex b).bind fun lo => (queryUnescape rest).map (UInt8.ofNat (16 * hi + lo) :: ·)
      | _ => none
    else if ch = '+' then (queryUnescape rest).map (32 :: ·)
    else (queryUnescape rest).map (String.utf8EncodeChar ch ++ ·)

theorem queryUnescape_percent (a b : Char) (rest : List Char) :
    queryUnescape ('%' :: a :: b :: rest) =
      (unhex a).bind fun hi => (unhex b).bind fun lo => (queryUnescape rest).map (UInt8.ofNat (16 * hi + lo) :: ·) := by
  rw [queryUnescape, if_pos rfl]

theorem queryUnescape_plus (rest : List Char) : queryUnescape ('+' :: rest) = (queryUnescape rest).map (32 :: ·) := by
  rw [queryUnescape.eq_def]
  exact if_neg (by decide)

theorem queryUnescape_cons {ch : Char} (rest : List Char) (hpct : ch ≠ '%') (hplus : ch ≠ '+') :
    queryUnescape (ch :: rest) = (queryUnescape rest).map (String.utf8EncodeChar ch ++ ·) := by
  rw [queryUnescape.eq_def]
  simp only [if_neg hpct, if_neg hplus]

theorem unhex_hexDigit : ∀ n < 16, unhex (hexDigit n) = some n := by decide

theorem queryUnescape_percentByte (b : UInt8) (rest : List Char) :
    queryUnescape (percentByte b ++ rest) = (queryUnescape rest).map (b :: ·) := by
  have hb : b.toNat < 256 := b.val.isLt
  have hbyte : UInt8.ofNat (16 * (b.toNat / 16) + b.toNat % 16) = b := by
    rw [Nat.div_add_mod]
    exact UInt8.eq_of_val_eq (by simp [UInt8.ofNat, UInt8.toNat, UInt8.val])
  rw [percentByte, List.cons_append, List.cons_append, List.singleton_append, queryUnescape_percent,
    unhex_hexDigit _ (by omega), unhex_hexDigit _ (by omega)]
  simp only [Option.some_bind, hbyte]

theorem queryUnescape_flatMap_percentByte (rest : List Char) : ∀ bs : List UInt8,
    queryUnescape (bs.flatMap percentByte ++ rest) = (queryUnescape rest).map (bs ++ ·)
  | [] => by simp
  | b :: bs => by
    rw [List.flatMap_cons, List.append_assoc, queryUnescape_percentByte, queryUnescape_flatMap_percentByte rest bs,
      Option.map_map]
    rfl

/-- Unescaping undoes the escape of one character, whatever follows it. -/
theorem queryUnescape_escapeChar (ch : Char) (rest : List Char) :
    queryUnescape (escapeChar ch ++ rest) = (queryUnescape rest).map (String.utf8EncodeChar ch ++ ·) := by
  unfold escapeChar
  split_ifs with hu hsp
  · have hpct : ch ≠ '%' := fun h => absurd (h ▸ hu) (by decide)
    have hplus : ch ≠ '+' := fun h => absurd (h ▸ hu) (by decide)
    exact queryUnescape_cons rest hpct hplus
  · subst hsp
    exact queryUnescape_plus rest
  · exact queryUnescape_flatMap_percentByte rest _

/-- `url.QueryUnescape` gives back the bytes `url.QueryEscape` was given. -/
theorem queryUnescape_queryEscape (q : String) :
    queryUnescape (queryEscape q).data = some (q.data.flatMap String.utf8EncodeChar) := by
  obtain ⟨l⟩ := q
  show queryUnescape (l.flatMap escapeChar) = _
  induction l with
  | nil => rfl
  | cons ch l ih =>
    rw [List.flatMap_cons, queryUnescape_escapeChar, ih]
    rfl

example : queryEscape "zone=é" = "zone%3D%C3%A9" ∧
    queryUnescape "zone%3D%C3%A9".data = some [122, 111, 110, 101, 61, 195, 169] := by
  decide

/-! ### Requests and responses -/

/-- The sentinel errors of package `etre` the client returns, and the errors it builds: a failed `do`, a
    body `json.Unmarshal` could not read, and an `apiError`. -/
inductive ClientError where
  | errNoQuery
  | errNoEntity
  | errIdSet
  | errIdNotSet
  | errTypeMismatch
  | errNoLabel
  | transport (msg : String)
  | decode (msg : String)
  | api (msg : String)
  deriving DecidableEq, Repr

/-- A request as `do` sends it: the method, the endpoint (the URL is `addr + API_ROOT + endpoint`) and the
    payload, `none` for a nil one. -/
structure Request where
  method : String
  endpoint : String
  payload : Option String
  deriving DecidableEq, Repr

/-- What `do` returns when the exchange succeeds: the status code and the body. -/
structure Response where
  statusCode : Nat
  body : String
  deriving DecidableEq, Repr

/-- The `Error` object of an API error response, as `json.Unmarshal` fills it: empty fields when the body
    has none. -/
structure ErrorResponse where
  type : String
  message : String
  deriving DecidableEq, Repr

/-- An entity: its labels. -/
abbrev Entity := GoMap String

/-- The JSON encoding and decoding the client relies on, left abstract. -/
structure Codec (W : Type) where
  marshal : List Entity → String
  writeResults : String → Except String (List W)
  entities : String → Except String (List Entity)
  labels : String → Except String (List String)
  errorResponse : String → ErrorResponse

/-- `entityClient`: its entity type, the JSON codec, and `do`, which returns a transport error or the
    response. `W` is the type of write results, which the client passes on unread. -/
structure EntityClient (W : Type) where
  entityType : String
  codec : Codec W
  send : Request → Except String Response

/-- The meta label of an entity's id. -/
def metaLabelId : String := "_id"

/-- The meta label of an entity's type. -/
def metaLabelType : String := "_type"

namespace EntityClient

variable {W : Type} (c : EntityClient W)

/-- `apiError`: the API's error object when the body has one with a type, else the status code alone. -/
def apiError (resp : Response) : ClientError :=
  let errResp : ErrorResponse := if goLen resp.body > 0 then c.codec.errorResponse resp.body else ⟨"", ""⟩
  if errResp.type = "" then
    .api ("API error: code " ++ toString resp.statusCode ++ " (no error response object); check API logs for errors")
  else .api ("API error: " ++ errResp.message ++ " (type: " ++ errResp.type ++ " code: " ++
    toString resp.statusCode ++ ")")

/-- `write`: send the entities, if any, and read the write results of a `200` or `201` response. -/
def write (entities : List Entity) (method endpoint : String) : Except ClientError (List W) :=
  let payload := if entities.length > 0 then some (c.codec.marshal entities) else none
  match c.send ⟨method, endpoint, payload⟩ with
  | .error e => .error (.transport e)
  | .ok resp =>
    if resp.statusCode ≠ 200 ∧ resp.statusCode ≠ 201 then .error (c.apiError resp)
    else (c.codec.writeResults resp.body).mapError .decode

/-- Whether an entity carries a `_type` other than the client's. -/
def typeMismatch (e : Entity) : Bool :=
  match e.get? metaLabelType with
  | some entityType => entityType != c.entityType
  | none => false

/-- The check `Insert` makes of each entity: no `_id`, and no foreign `_type`. -/
def insertCheck (e : Entity) : Option ClientError :=
  if (e.get? metaLabelId).isSome then some .errIdSet
  else if c.typeMismatch e then some .errTypeMismatch
  else none

/-- The check `Update` makes of each patch: an `_id`, and no foreign `_type`. -/
def updateCheck (e : Entity) : Option ClientError :=
  if (e.get? metaLabelId).isNone then some .errIdNotSet
  else if c.typeMismatch e then some .errTypeMismatch
  else none

/-- `Insert`. -/
def insert (entities : List Entity) : Except ClientError (List W) :=
  if entities.length = 0 then .error .errNoEntity
  else
    match entities.findSome? c.insertCheck with
    | some err => .error err
    | none => c.write entities "POST" ("/entities/" ++ c.entityType)

/-- `Update`. -/
def update (query : String) (patch : List Entity) : Except ClientError (List W) :=
  if query = "" then .error .errNoQuery
  else
    let query := queryEscape query
    if patch.length = 0 then .error .errNoEntity
    else
      match patch.findSome? c.updateCheck with
      | some err => .error err
      | none => c.write patch "PUT" ("/entities/" ++ c.entityType ++ "?" ++ query)

/-- `UpdateOne`; `none` is the panic of `wr[0]` on an empty list. -/
def updateOne (id : String) (patch : Entity) : Option (Except ClientError W) :=
  if id = "" then some (.error .errIdNotSet)
  else
    match c.update ("_id=" ++ id) [patch] with
    | .error err => some (.error err)
    | .ok wr => wr[0]?.map .ok

/-- `Delete`. -/
def delete (query : String) : Except ClientError (List W) :=
  if query = "" then .error .errNoQuery
  else c.write [] "DELETE" ("/entities/" ++ c.entityType ++ "?" ++ queryEscape query)

/-- `DeleteOne`; `none` is the panic of `wr[0]` on an empty list. -/
def deleteOne (id : String) : Option (Except ClientError W) :=
  if id = "" then some (.error .errIdNotSet)
  else
    match c.delete ("_id=" ++ id) with
    | .error err => some (.error err)
    | .ok wr => wr[0]?.map .ok

/-- `Labels`. -/
def labels (id : String) : Except ClientError (List String) :=
  if id = "" then .error .errIdNotSet
  else
    match c.send ⟨"GET", "/entity/" ++ c.entityType ++ "/" ++ id ++ "/labels", none⟩ with
    | .error e => .error (.transport e)
    | .ok resp =>
      if resp.statusCode ≠ 200 then .error (c.apiError resp)
      else (c.codec.labels resp.body).mapError .decode

/-- `DeleteLabel`; `none` is the panic of `wr[0]` on an empty list. -/
def deleteLabel (id label : String) : Option (Except ClientError W) :=
  if id = "" then some (.error .errIdNotSet)
  else if label = "" then some (.error .errNoLabel)
  else
    match c.write [] "DELETE" ("/entity/" ++ c.entityType ++ "/" ++ id ++ "/labels/" ++ label) with
    | .error err => some (.error err)
    | .ok wr => wr[0]?.map .ok

/-- The request `Query` sends: a `GET` with the escaped query in the URL when the raw query is under 2000
    bytes, else a `POST` with the raw query as the body. -/
def queryRequest (query : String) : Request :=
  if goLen query < 2000 then ⟨"GET", "/entities/" ++ c.entityType ++ "?" ++ queryEscape query, none⟩
  else ⟨"POST", "/query/" ++ c.entityType, some query⟩

/-- `Query` (its filter argument is unused). -/
def query (query : String) : Except ClientError (List Entity) :=
  if query = "" then .error .errNoQuery
  else
    match c.send (c.queryRequest query) with
    | .error e => .error (.transport e)
    | .ok resp =>
      if resp.statusCode ≠ 200 then .error (c.apiError resp)
      else (c.codec.entities resp.body).mapError .decode

/-! ### Single-entity writes -/

theorem id_query_ne_empty (id : String) : "_id=" ++ id ≠ "" := fun h => by
  have h := congrArg String.length h
  simp only [String.length_append, show "_id=".length = 4 from rfl, String.length_empty] at h
  omega

/-- A server that answers every request with a success whose body decodes to no write result. -/
theorem write_of_empty_result {resp : Response} (hsend : ∀ req, c.send req = .ok resp)
    (hstatus : resp.statusCode = 200 ∨ resp.statusCode = 201) (hempty : c.codec.writeResults resp.body = .ok [])
    (entities : List Entity) (method endpoint : String) : c.write entities method endpoint = .ok [] := by
  have hs : ¬(resp.statusCode ≠ 200 ∧ resp.statusCode ≠ 201) := by omega
  simp only [write, hsend, hs, if_false, hempty]
  rfl

/-- Any server that answers `200` or `201` with a body that decodes to no write result, such as `[]` or
    `null`, makes `UpdateOne`, `DeleteOne` and `DeleteLabel` index past the end of the results. -/
theorem single_writes_panic_on_empty_result {resp : Response} (hsend : ∀ req, c.send req = .ok resp)
    (hstatus : resp.statusCode = 200 ∨ resp.statusCode = 201) (hempty : c.codec.writeResults resp.body = .ok [])
    (id label : String) (patch : Entity) (hid : id ≠ "") (hlabel : label ≠ "") (hpatch : c.updateCheck patch = none) :
    c.updateOne id patch = none ∧ c.deleteOne id = none ∧ c.deleteLabel id label = none := by
  have hw := c.write_of_empty_result hsend hstatus hempty
  refine ⟨?_, ?_, ?_⟩
  · simp [updateOne, update, hid, id_query_ne_empty, hpatch, hw]
  · simp [deleteOne, delete, hid, id_query_ne_empty, hw]
  · simp [deleteLabel, hid, hlabel, hw]

end EntityClient

/-- A client whose server answers everything with `200` and `[]`. -/
theorem single_writes_panic_on_empty_array :
    let c : EntityClient Unit :=
      ⟨"host", ⟨fun _ => "[]", fun _ => .ok [], fun _ => .ok [], fun _ => .ok [], fun _ => ⟨"", ""⟩⟩,
        fun _ => .ok ⟨200, "[]"⟩⟩
    let patch : Entity := ⟨[("_id", "a1")]⟩
    ((∀ req, c.send req = .ok ⟨200, "[]"⟩) ∧ c.codec.writeResults "[]" = .ok [] ∧ c.updateCheck patch = none) ∧
      c.updateOne "a1" patch = none ∧ c.deleteOne "a1" = none ∧ c.deleteLabel "a1" "env" = none :=
  ⟨⟨fun _ => rfl, rfl, rfl⟩, EntityClient.single_writes_panic_on_empty_result _ (fun _ => rfl) (.inl rfl) rfl
    "a1" "env" _ (by decide) (by decide) rfl⟩

/-! ### What `Query`, `Update` and `Delete` send -/

namespace EntityClient

variable {W β : Type} (c : EntityClient W)

/-- `op` asks the server about `req` alone: on `c` and on any client that differs from `c` only in a server
    that answers `req` alike it returns the same, and a transport failure of `req` is what it returns. -/
structure Sends (op : EntityClient W → Except ClientError β) (req : Request) : Prop where
  only : ∀ send : Request → Except String Response, send req = c.send req → op ⟨c.entityType, c.codec, send⟩ = op c
  transport : ∀ m, c.send req = .error m → op c = .error (.transport m)

variable {c}

/-- An operation that agrees with one that sends `req`, on `c` with any server, sends `req`. -/
theorem Sends.congr {op op' : EntityClient W → Except ClientError β} {req : Request} (h : c.Sends op' req)
    (heq : ∀ send, op ⟨c.entityType, c.codec, send⟩ = op' ⟨c.entityType, c.codec, send⟩) : c.Sends op req where
  only send hs := (heq send).trans ((h.only send hs).trans (heq c.send).symm)
  transport m hm := (heq c.send).trans (h.transport m hm)

variable (c)

theorem write_sends (entities : List Entity) (method endpoint : String) :
    c.Sends (·.write entities method endpoint)
      ⟨method, endpoint, if entities.length > 0 then some (c.codec.marshal entities) else none⟩ where
  only send hs := by simp only [write] at hs ⊢; rw [hs]; rfl
  transport m hm := by simp only [write] at hm ⊢; rw [hm]

theorem query_sends {q : String} (hq : q ≠ "") : c.Sends (·.query q) (c.queryRequest q) where
  only send hs := by
    have hs' : send (queryRequest ⟨c.entityType, c.codec, send⟩ q) = c.send (c.queryRequest q) := hs
    simp only [query, if_neg hq]
    rw [hs']
    rfl
  transport m hm := by simp only [query, if_neg hq, hm]

theorem update_sends {q : String} {patch : List Entity} (hq : q ≠ "") (hpatch : patch ≠ [])
    (hchecks : ∀ x ∈ patch, c.updateCheck x = none) :
    c.Sends (·.update q patch)
      ⟨"PUT", "/entities/" ++ c.entityType ++ "?" ++ queryEscape q, some (c.codec.marshal patch)⟩ := by
  have hlen : patch.length ≠ 0 := fun h => hpatch (List.length_eq_zero.mp h)
  have hfind : patch.findSome? c.updateCheck = none := List.findSome?_eq_none_iff.mpr hchecks
  have hw := c.write_sends patch "PUT" ("/entities/" ++ c.entityType ++ "?" ++ queryEscape q)
  rw [if_pos (Nat.pos_of_ne_zero hlen)] at hw
  exact hw.congr fun send => by
    have hfind' : patch.findSome? (updateCheck ⟨c.entityType, c.codec, send⟩) = none := hfind
    simp only [update, if_neg hq, if_neg hlen, hfind']

theorem delete_sends {q : String} (hq : q ≠ "") :
    c.Sends (·.delete q) ⟨"DELETE", "/entities/" ++ c.entityType ++ "?" ++ queryEscape q, none⟩ :=
  (c.write_sends [] "DELETE" _).congr fun send => by simp only [delete, if_neg hq]

end EntityClient

/-- `Query` refuses an empty query with `ErrNoQuery`, whatever the server. Any other query it sends as one
    request: a `GET` with the escaped query, at most 5997 bytes of it, when the raw query is under 2000 bytes,
    else a `POST` with the raw query as the body. -/
theorem query_spec {W : Type} (c : EntityClient W) (q : String) :
    (q = "" → c.query q = .error .errNoQuery) ∧
    (q ≠ "" →
      (goLen q < 2000 ∧ c.Sends (·.query q) ⟨"GET", "/entities/" ++ c.entityType ++ "?" ++ queryEscape q, none⟩ ∧
        goLen (queryEscape q) ≤ 5997) ∨
      (2000 ≤ goLen q ∧ c.Sends (·.query q) ⟨"POST", "/query/" ++ c.entityType, some q⟩)) := by
  refine ⟨fun hq => by simp [EntityClient.query, hq], fun hq => ?_⟩
  have hs := c.query_sends hq
  by_cases h : goLen q < 2000
  · have := goLen_queryEscape_le q
    rw [EntityClient.queryRequest, if_pos h] at hs
    exact .inl ⟨h, hs, by omega⟩
  · rw [EntityClient.queryRequest, if_neg h] at hs
    exact .inr ⟨by omega, hs⟩

/-- 1999 commas are under the limit, so `Query` sends a `GET`; escaped, they are 5997 bytes of URL. -/
theorem query_gets_long_escaped_url {W : Type} (c : EntityClient W) :
    let q : String := ⟨List.replicate 1999 ','⟩
    goLen q < 2000 ∧ c.queryRequest q = ⟨"GET", "/entities/" ++ c.entityType ++ "?" ++ queryEscape q, none⟩ ∧
      c.Sends (·.query q) ⟨"GET", "/entities/" ++ c.entityType ++ "?" ++ queryEscape q, none⟩ ∧
      goLen (queryEscape q) = 5997 := by
  intro q
  have hq : goLen q = 1999 := goLen_replicate 1999 ','
  have hreq : c.queryRequest q = ⟨"GET", "/entities/" ++ c.entityType ++ "?" ++ queryEscape q, none⟩ :=
    if_pos (by omega)
  have hne : q ≠ "" := fun h => by rw [h] at hq; cases hq
  refine ⟨by omega, hreq, hreq ▸ c.query_sends hne, ?_⟩
  rw [goLen_queryEscape_replicate]
  rfl

/-- `Query`, `Update` and `Delete` send `url.QueryEscape` of the query after the `?` of the URL. That text has
    only kept characters, `+` and `%`, so the query can neither end the query string nor add a parameter or a
    fragment, and `url.QueryUnescape` gives back the bytes of the query. -/
theorem query_urls_unescape {W : Type} (c : EntityClient W) {q : String} (hq : q ≠ "") :
    (goLen q < 2000 → c.Sends (·.query q) ⟨"GET", "/entities/" ++ c.entityType ++ "?" ++ queryEscape q, none⟩) ∧
    (∀ patch : List Entity, patch ≠ [] → (∀ x ∈ patch, c.updateCheck x = none) →
      c.Sends (·.update q patch)
        ⟨"PUT", "/entities/" ++ c.entityType ++ "?" ++ queryEscape q, some (c.codec.marshal patch)⟩) ∧
    c.Sends (·.delete q) ⟨"DELETE", "/entities/" ++ c.entityType ++ "?" ++ queryEscape q, none⟩ ∧
    (∀ ch ∈ (queryEscape q).data, unreserved ch = true ∨ ch = '+' ∨ ch = '%') ∧
    queryUnescape (queryEscape q).data = some (q.data.flatMap String.utf8EncodeChar) := by
  refine ⟨fun h => ?_, fun patch hp hc => c.update_sends hq hp hc, c.delete_sends hq, fun ch hch => ?_,
    queryUnescape_queryEscape q⟩
  · have hs := c.query_sends hq
    rwa [EntityClient.queryRequest, if_pos h] at hs
  · obtain ⟨ch', -, h⟩ := List.mem_flatMap.mp hch
    exact mem_escapeChar h

/-- A query with spaces, an `=` and a non-ASCII character. -/
theorem query_urls_unescape_env :
    let c : EntityClient Unit :=
      ⟨"host", ⟨fun _ => "[]", fun _ => .ok [], fun _ => .ok [], fun _ => .ok [], fun _ => ⟨"", ""⟩⟩,
        fun _ => .ok ⟨200, "[]"⟩⟩
    let q := "env=prod & zone=é"
    q ≠ "" ∧
    (goLen q < 2000 → c.Sends (·.query q) ⟨"GET", "/entities/" ++ c.entityType ++ "?" ++ queryEscape q, none⟩) ∧
    (∀ patch : List Entity, patch ≠ [] → (∀ x ∈ patch, c.updateCheck x = none) →
      c.Sends (·.update q patch)
        ⟨"PUT", "/entities/" ++ c.entityType ++ "?" ++ queryEscape q, some (c.codec.marshal patch)⟩) ∧
    c.Sends (·.delete q) ⟨"DELETE", "/entities/" ++ c.entityType ++ "?" ++ queryEscape q, none⟩ ∧
    (∀ ch ∈ (queryEscape q).data, unreserved ch = true ∨ ch = '+' ∨ ch = '%') ∧
    queryUnescape (queryEscape q).data = some (q.data.flatMap String.utf8EncodeChar) := by
  intro c q
  have hq : q ≠ "" := by decide
  exact ⟨hq, query_urls_unescape c hq⟩

end Etre.Client
