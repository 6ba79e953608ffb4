import Lazyd.Control.Requests
import Lazyd.Data.Packets
import Lazyd.Library.Decimal
import Lazyd.Remote.AuthParams

/-!
# Responses on the control socket

A response is a status line, three header fields at most and a body, which is announced by its
length. What a client reads back does not depend on what is in the body, nor on the texts that an
error carries: the text of an error is written as a JSON string behind the header, so no line break
in it can end the header or begin another response.

## Main definitions

* `Http.Response`, `Http.renderResponse`.
* `Http.ErrorCodec`, `Http.errorJson` : the JSON library on errors, and the compact encoding.
* `Http.Reply`, `Http.readReply` : what a client reads off the bytes of a response.

## Main results

* `Http.parseUsize_toString` : a number in decimal is parsed.
* `Http.contentLength_announced` : lines that announce a length.
* `Http.Response.Plain.readReply_take` : a response is read back when all of it has arrived,
  whatever follows it.

Source: `src/control.rs`, lines 39–42 and 274–342; `src/error.rs`, lines 18–46.
-/

namespace Lazyd

namespace Http

open Oci (isWhitespace trim trimMatches_append splitOnce splitOnce_append_cons)
open Utf8
open JsonBytes
open HeaderJson (key brace close readText readText_writeString)

/-! ### Responses -/

/-- `Response` -/
structure Response where
  status : ℕ
  contentType : Option String
  body : List UInt8
  deriving DecidableEq, Repr

/-- `Response::empty` -/
def Response.empty (status : ℕ) : Response := { status, contentType := none, body := [] }

/-- `Response::json` -/
def Response.json (status : ℕ) (body : List UInt8) : Response :=
  { status, contentType := some "application/json", body }

/-- `serde_json::to_vec` on an `ErrorBody`, and how a client reads one. -/
structure ErrorCodec where
  write : String → List UInt8
  read : List UInt8 → Option String
  read_write : ∀ error, read (write error) = some error

variable (codec : ErrorCodec)

/-- The response to a result of `handle_request`. -/
def responseOf (ioText : IoError → String) : Except Error Response → Response
  | .ok response => response
  | .error err => .json err.statusCode (codec.write (err.message ioText))

/-- The reason phrases. -/
def reason : ℕ → String
  | 200 => "OK"
  | 204 => "No Content"
  | 400 => "Bad Request"
  | 404 => "Not Found"
  | 409 => "Conflict"
  | _ => "Internal Server Error"

/-- The head of a response. -/
def Response.head (response : Response) : String :=
  let head := "HTTP/1.1 " ++ toString response.status ++ " " ++ reason response.status ++
    "\r\nContent-Length: " ++ toString response.body.length ++ "\r\nConnection: close\r\n"
  match response.contentType with
  | some contentType => head ++ ("Content-Type: " ++ contentType ++ "\r\n") ++ "\r\n"
  | none => head ++ "\r\n"

/-- `render_response` -/
def renderResponse (ioText : IoError → String) (response : Except Error Response) : List UInt8 :=
  let response := responseOf codec ioText response
  utf8 response.head ++ response.body

/-! ### What a client reads -/

/-- What a client reads off a response. -/
structure Reply where
  status : ℕ
  contentType : Option String
  body : List UInt8
  deriving DecidableEq, Repr

/-- The status code in a status line. -/
def statusOf (line : List Char) : Option ℕ :=
  match splitWhitespace line with
  | _ :: code :: _ => parseUsize code
  | _ => none

/-- The value of a header field, if the line is the field with the name. -/
def fieldValue (name : String) (line : List Char) : Option String :=
  match splitOnce ':' line with
  | none => none
  | some (field, value) =>
    if field.map Char.toLower = name.toList then some (String.ofList (trim value)) else none

/-- A response, read by its announced length. -/
def readReply (bytes : List UInt8) : Option Reply := do
  let headerEnd ← findHeaderEnd bytes
  let head ← (fromUtf8 (bytes.take (headerEnd - 4))).toOption
  let status ← (lines head).head?.bind statusOf
  let contentLen ← (lines head).tail.findSome? contentLength
  let body := bytes.drop headerEnd
  if contentLen ≤ body.length then
    some
      { status, contentType := (lines head).tail.findSome? (fieldValue "content-type"),
        body := body.take contentLen }
  else none

/-! ### Numbers -/

/-- **A number in decimal is parsed**, if it is one of a `usize`. -/
theorem parseUsize_toString (n : ℕ) :
    parseUsize (toString n).toList = if n < U64.size then some n else none := by
  have hplus : (toString n).toList.head? ≠ some '+' := fun hhead =>
    Decimal.notMem_toString (by decide) (List.mem_of_mem_head? hhead)
  have hvalue : (toString n).toList.foldl (fun n c => 10 * n + (c.toNat - '0'.toNat)) 0 = n := by
    rw [← Nat.ofDigitChars_eq_foldl]
    exact Decimal.ofDigitChars_toString n
  rw [parseUsize, if_neg hplus]
  dsimp only
  rw [if_pos ⟨Decimal.toString_ne_nil n, Decimal.all_isDigit_toString n⟩, hvalue]

theorem isWhitespace_of_isDigit {c : Char} (h : c.isDigit = true) : isWhitespace c = false := by
  have hc : 48 ≤ c.toNat ∧ c.toNat ≤ 57 := by
    change (decide (48 ≤ c.val) && decide (c.val ≤ 57)) = true at h
    rw [Bool.and_eq_true, decide_eq_true_eq, decide_eq_true_eq] at h
    exact h
  simp only [isWhitespace, List.mem_cons, List.not_mem_nil, or_false, Bool.or_eq_false_iff,
    Bool.and_eq_false_iff, decide_eq_false_iff_not]
  omega

theorem isWord_toString (n : ℕ) : IsWord (toString n).toList :=
  fun _ hc => isWhitespace_of_isDigit (Decimal.isDigit_of_mem_toString hc)

/-! ### The lines of a head -/

namespace Response

variable (response : Response)

/-- The first line. -/
def statusLine : List Char :=
  "HTTP/1.1".toList ++ ' ' :: ((toString response.status).toList ++
    ' ' :: (reason response.status).toList)

/-- The header fields, each with its name and its value. -/
def fields : List (String × String) :=
  [("Content-Length", toString response.body.length), ("Connection", "close")] ++
    (response.contentType.map fun contentType => ("Content-Type", contentType)).toList

end Response

/-- A header field on its line. -/
def fieldLine (field : String × String) : List Char :=
  field.1.toList ++ ':' :: ' ' :: field.2.toList

/-- The texts of a head, put together. -/
theorem toList_front {version code phrase lengthName length close space : String}
    (hversion : version.toList = "HTTP/1.1".toList ++ [' ']) (hspace : space.toList = [' '])
    (hlength : lengthName.toList = '\r' :: '\n' :: ("Content-Length".toList ++ [':', ' ']))
    (hclose : close.toList =
      '\r' :: '\n' :: (fieldLine ("Connection", "close") ++ ['\r', '\n'])) :
    (version ++ code ++ space ++ phrase ++ lengthName ++ length ++ close).toList =
      endLines ["HTTP/1.1".toList ++ ' ' :: (code.toList ++ ' ' :: phrase.toList),
        fieldLine ("Content-Length", length), fieldLine ("Connection", "close")] := by
  have hfield : fieldLine ("Content-Length", length) =
      "Content-Length".toList ++ ':' :: ' ' :: length.toList := rfl
  simp only [String.toList_append, hversion, hspace, hlength, hclose, hfield, endLines,
    List.flatMap_cons, List.flatMap_nil, List.append_nil, List.append_assoc, List.cons_append,
    List.nil_append]

theorem Response.toList_head (response : Response) : response.head.toList =
    endLines (response.statusLine :: response.fields.map fieldLine) ++ ['\r', '\n'] := by
  have hfront := @toList_front "HTTP/1.1 " (toString response.status) (reason response.status)
    "\r\nContent-Length: " (toString response.body.length) "\r\nConnection: close\r\n" " "
    (by decide) (by decide) (by decide) (by decide)
  have hbreak : "\r\n".toList = ['\r', '\n'] := by decide
  have happend (lines lines' : List (List Char)) :
      endLines (lines ++ lines') = endLines lines ++ endLines lines' := List.flatMap_append
  rw [head]
  cases hcontent : response.contentType with
  | none =>
    simp only
    rw [String.toList_append, hfront, hbreak, fields, hcontent]
    rfl
  | some contentType =>
    have hfield : ("Content-Type: " ++ contentType ++ "\r\n").toList =
        endLines [fieldLine ("Content-Type", contentType)] := by
      have htype : "Content-Type: ".toList = "Content-Type".toList ++ [':', ' '] := by decide
      have hline : fieldLine ("Content-Type", contentType) =
          "Content-Type".toList ++ ':' :: ' ' :: contentType.toList := rfl
      rw [String.toList_append, String.toList_append, hbreak, htype, endLines,
        List.flatMap_singleton, hline, List.append_assoc, List.append_assoc, List.append_assoc]
      rfl
    simp only
    rw [String.toList_append, String.toList_append, hfront, hbreak, hfield, ← happend, fields,
      hcontent]
    rfl

/-- A response as `handle_request` makes it. -/
structure Response.Plain (response : Response) : Prop where
  status_lt : response.status < U64.size
  contentType : ∀ contentType ∈ response.contentType, contentType = "application/json"

theorem isLine_reason (status : ℕ) : IsLine (reason status).toList := by
  unfold reason
  split <;> decide

theorem Response.Plain.isLine {response : Response} (h : response.Plain) :
    ∀ line ∈ response.statusLine :: response.fields.map fieldLine, line ≠ [] ∧ IsLine line := by
  have hword {n : ℕ} : IsLine (toString n).toList := Message.isLine_of_word (isWord_toString n)
  have hjoin {a b : List Char} {c : Char} (ha : IsLine a) (hc : c ≠ '\r' ∧ c ≠ '\n')
      (hb : IsLine b) : IsLine (a ++ c :: b) := by
    intro x hx
    rcases List.mem_append.mp hx with hx | hx
    · exact ha x hx
    · rcases List.mem_cons.mp hx with rfl | hx
      · exact hc
      · exact hb x hx
  have hfield {name value : String} (hname : name.toList ≠ [] ∧ IsLine name.toList)
      (hvalue : IsLine value.toList) :
      fieldLine (name, value) ≠ [] ∧ IsLine (fieldLine (name, value)) := by
    refine ⟨List.append_ne_nil_of_left_ne_nil hname.1 _, hjoin hname.2 (by decide) ?_⟩
    exact hjoin (a := []) (by decide) (by decide) hvalue
  intro line hline
  rcases List.mem_cons.mp hline with rfl | hline
  · refine ⟨List.append_ne_nil_of_left_ne_nil (by decide) _, hjoin (by decide) (by decide) ?_⟩
    exact hjoin hword (by decide) (isLine_reason _)
  · obtain ⟨field, hmem, rfl⟩ := List.mem_map.mp hline
    rcases List.mem_append.mp hmem with hmem | hmem
    · rcases List.mem_pair.mp hmem with rfl | rfl
      · exact hfield (by decide) hword
      · exact hfield (by decide) (by decide)
    · cases hcontent : response.contentType with
      | none => simp [hcontent] at hmem
      | some contentType =>
        rw [hcontent, Option.map_some, Option.toList_some, List.mem_singleton] at hmem
        rw [hmem, h.contentType contentType hcontent]
        exact hfield (by decide) (by decide)

/-! ### Reading the lines back -/

theorem splitOnce_fieldLine {name : String} (h : ':' ∉ name.toList) (value : String) :
    splitOnce ':' (fieldLine (name, value)) = some (name.toList, ' ' :: value.toList) :=
  splitOnce_append_cons h _

theorem trim_cons_space {word : List Char} (h : IsWord word) : trim (' ' :: word) = word := by
  have hspace : ∀ c ∈ [' '], isWhitespace c = true := by
    intro c hc
    rw [List.mem_singleton.mp hc]
    decide
  have htrim := @trimMatches_append isWhitespace [' '] word [] hspace (by simp)
    (fun c hc => h c (List.mem_of_mem_head? hc)) fun c hc => h c (List.mem_of_getLast? hc)
  rwa [List.append_nil, List.singleton_append] at htrim

/-- **An announced length** is read off a line with the name of the field, in any case, and a number
in decimal, with any white space around it. -/
theorem contentLength_announced {name before after : List Char}
    (hname : name.map Char.toLower = "content-length".toList)
    (hbefore : ∀ c ∈ before, isWhitespace c = true) (hafter : ∀ c ∈ after, isWhitespace c = true)
    (n : ℕ) :
    contentLength (name ++ ':' :: (before ++ (toString n).toList ++ after)) =
      if n < U64.size then some n else none := by
  have hcolon : ':' ∉ name := by
    intro hmem
    have hlower := List.mem_map_of_mem (f := Char.toLower) hmem
    rw [hname] at hlower
    exact absurd hlower (by decide)
  have hword := isWord_toString n
  have htrim : trim (before ++ (toString n).toList ++ after) = (toString n).toList :=
    trimMatches_append hbefore hafter (fun c hc => hword c (List.mem_of_mem_head? hc))
      fun c hc => hword c (List.mem_of_getLast? hc)
  rw [contentLength, splitOnce_append_cons hcolon]
  simp only
  rw [if_pos hname, htrim, parseUsize_toString]

theorem contentLength_fieldLine (n : ℕ) :
    contentLength (fieldLine ("Content-Length", toString n)) =
      if n < U64.size then some n else none := by
  have hspace : ∀ c ∈ [' '], isWhitespace c = true := List.forall_mem_singleton.mpr rfl
  have h := @contentLength_announced "Content-Length".toList [' '] [] (by decide +kernel) hspace
    (by simp) n
  rwa [List.append_nil] at h

theorem fieldValue_fieldLine {name field value : String} (hcolon : ':' ∉ field.toList)
    (hname : field.toList.map Char.toLower = name.toList) (hvalue : IsWord value.toList) :
    fieldValue name (fieldLine (field, value)) = some value := by
  rw [fieldValue, splitOnce_fieldLine hcolon]
  simp only
  rw [if_pos hname, trim_cons_space hvalue, String.ofList_toList]

theorem fieldValue_of_ne {name field : String} (hcolon : ':' ∉ field.toList)
    (hname : field.toList.map Char.toLower ≠ name.toList) (value : String) :
    fieldValue name (fieldLine (field, value)) = none := by
  rw [fieldValue, splitOnce_fieldLine hcolon]
  simp only
  rw [if_neg hname]

namespace Response.Plain

variable {response : Response} (h : response.Plain)

include h

theorem statusOf_statusLine : statusOf response.statusLine = some response.status := by
  have hwords : splitWhitespace response.statusLine = "HTTP/1.1".toList ::
      (toString response.status).toList :: splitWhitespace (reason response.status).toList :=
    splitWhitespace_words (by decide) (Decimal.toString_ne_nil _) (by decide) (isWord_toString _)
  rw [statusOf, hwords]
  exact (parseUsize_toString _).trans (if_pos h.status_lt)

theorem findSome?_contentLength : (response.fields.map fieldLine).findSome? contentLength =
    if response.body.length < U64.size then some response.body.length else none := by
  have hconnection : contentLength (fieldLine ("Connection", "close")) = none := by
    decide +kernel
  have htype : contentLength (fieldLine ("Content-Type", "application/json")) = none := by
    decide +kernel
  have hnone : (response.fields.map fieldLine).tail.findSome? contentLength = none := by
    rw [List.findSome?_eq_none_iff]
    intro line hline
    change line ∈ fieldLine ("Connection", "close") :: (response.contentType.map fun contentType =>
      ("Content-Type", contentType)).toList.map fieldLine at hline
    rcases List.mem_cons.mp hline with rfl | hline
    · exact hconnection
    · cases hcontent : response.contentType with
      | none => simp [hcontent] at hline
      | some contentType =>
        obtain rfl := h.contentType contentType hcontent
        rw [hcontent] at hline
        rw [List.mem_singleton.mp hline, htype]
  have hfirst : response.fields.map fieldLine =
      fieldLine ("Content-Length", toString response.body.length) ::
        (response.fields.map fieldLine).tail := rfl
  rw [hfirst, List.findSome?_cons, contentLength_fieldLine, hnone]
  split_ifs <;> rfl

theorem findSome?_contentType :
    (response.fields.map fieldLine).findSome? (fieldValue "content-type") =
      response.contentType := by
  have hlength : fieldValue "content-type"
      (fieldLine ("Content-Length", toString response.body.length)) = none :=
    fieldValue_of_ne (by decide) (by decide) _
  have hconnection : fieldValue "content-type" (fieldLine ("Connection", "close")) = none :=
    fieldValue_of_ne (by decide) (by decide) _
  have htype : fieldValue "content-type" (fieldLine ("Content-Type", "application/json")) =
      some "application/json" := fieldValue_fieldLine (by decide) (by decide) (by decide)
  cases hcontent : response.contentType with
  | none =>
    simp only [fields, hcontent, Option.map_none, Option.toList_none, List.append_nil,
      List.map_cons, List.map_nil, List.findSome?_cons, List.findSome?_nil, hlength, hconnection]
  | some contentType =>
    obtain rfl := h.contentType contentType hcontent
    simp only [fields, hcontent, Option.map_some, Option.toList_some, List.cons_append,
      List.nil_append, List.map_cons, List.map_nil, List.findSome?_cons, hlength, hconnection,
      htype]

end Response.Plain

/-- Lines and an empty line are a header of their own, whatever follows. -/
theorem header_lines {ls : List (List Char)} (hne : ls ≠ [])
    (hlines : ∀ line ∈ ls, line ≠ [] ∧ IsLine line) (rest : List UInt8) :
    findHeaderEnd (encode (endLines ls ++ ['\r', '\n']) ++ rest) =
        some (encode (endLines ls ++ ['\r', '\n'])).length ∧
      fromUtf8 ((encode (endLines ls ++ ['\r', '\n']) ++ rest).take
        ((encode (endLines ls ++ ['\r', '\n'])).length - 4)) = .ok (joinLines ls) := by
  have hbreak : encode ['\r', '\n'] = [13, 10] := by decide
  have hhead : encode (endLines ls ++ ['\r', '\n']) = encode (joinLines ls) ++ terminator := by
    rw [endLines_eq_joinLines hne, List.append_assoc, encode_append]
    rfl
  constructor
  · rw [encode_append, hbreak, List.append_assoc, List.length_append]
    exact findHeaderEnd_lines hne hlines rest
  · have hlen :
        (encode (joinLines ls) ++ terminator).length - 4 = (encode (joinLines ls)).length := by
      rw [List.length_append]
      exact Nat.add_sub_cancel _ 4
    rw [hhead, hlen, List.append_assoc, List.take_left, fromUtf8_encode]

theorem utf8_eq_encode (text : String) : utf8 text = encode text.toList := by
  have h := DataPlane.utf8_ofList text.toList
  rwa [String.ofList_toList] at h

/-- A head is read as the status, the content type and as much of the body as it announces, if that
much is there. -/
theorem Response.Plain.readReply_head {response : Response} (h : response.Plain)
    (got : List UInt8) : readReply (utf8 response.head ++ got) =
      if response.body.length < U64.size ∧ response.body.length ≤ got.length then
        some ⟨response.status, response.contentType, got.take response.body.length⟩
      else none := by
  have hlines := h.isLine
  obtain ⟨hend, hhead⟩ := header_lines (List.cons_ne_nil _ _) hlines got
  rw [← response.toList_head, ← utf8_eq_encode] at hend hhead
  simp only [readReply, hend, hhead, Except.toOption, Option.bind_eq_bind, Option.bind_some,
    lines_joinLines hlines, List.head?_cons, List.tail_cons, h.statusOf_statusLine,
    h.findSome?_contentLength, h.findSome?_contentType, List.drop_left]
  by_cases hlt : response.body.length < U64.size
  · rw [if_pos hlt, Option.bind_some]
    exact if_congr (and_iff_right hlt).symm rfl rfl
  · rw [if_neg hlt, if_neg fun hboth => hlt hboth.1]
    rfl

/-- **A response is read when all of it has arrived**, and not before, whatever follows it. A
length that is no `usize` is not read. -/
theorem Response.Plain.readReply_take {response : Response} (h : response.Plain)
    (rest : List UInt8) (n : ℕ) :
    readReply ((utf8 response.head ++ response.body ++ rest).take n) =
      if response.body.length < U64.size ∧ (utf8 response.head ++ response.body).length ≤ n then
        some ⟨response.status, response.contentType, response.body⟩
      else none := by
  rw [List.length_append]
  by_cases hn : n < (utf8 response.head).length
  · -- the end of the header has not arrived
    have hend := (header_lines (List.cons_ne_nil _ _) h.isLine (response.body ++ rest)).1
    rw [← response.toList_head, ← utf8_eq_encode, ← List.append_assoc,
      ← List.take_append_drop n (utf8 response.head ++ response.body ++ rest)] at hend
    have hnone := findHeaderEnd_eq_none hend
      (lt_of_le_of_lt (List.length_take_le n _) hn)
    rw [readReply, hnone, if_neg fun hboth => by omega]
    rfl
  · obtain ⟨m, rfl⟩ := Nat.exists_eq_add_of_le (not_lt.mp hn)
    rw [List.append_assoc, List.take_length_add_append, h.readReply_head]
    have hgot : response.body.length ≤ ((response.body ++ rest).take m).length ↔
        (utf8 response.head).length + response.body.length ≤ (utf8 response.head).length + m := by
      rw [List.length_take, List.length_append]
      omega
    refine ite_congr (congrArg (response.body.length < U64.size ∧ ·) (propext hgot))
      (fun hboth => ?_) fun _ => rfl
    have hm : response.body.length ≤ m := by omega
    rw [List.take_take, min_eq_left hm, List.take_left]

/-- A response that has arrived is read. -/
theorem Response.Plain.readReply_self {response : Response} (h : response.Plain)
    (hbody : response.body.length < U64.size) :
    readReply (utf8 response.head ++ response.body) =
      some ⟨response.status, response.contentType, response.body⟩ := by
  have htake := h.readReply_take [] (utf8 response.head ++ response.body).length
  rwa [List.append_nil, List.take_length, if_pos ⟨hbody, le_rfl⟩] at htake

theorem statusCode_le (err : Error) : err.statusCode ≤ 500 := by
  cases err <;> simp [Error.statusCode]

theorem plain_empty {status : ℕ} (h : status < U64.size) : (Response.empty status).Plain :=
  ⟨h, fun _ hno => absurd hno (by simp [Response.empty])⟩

theorem plain_json {status : ℕ} (h : status < U64.size) (body : List UInt8) :
    (Response.json status body).Plain :=
  ⟨h, fun _ hcontent => (Option.some.inj hcontent).symm⟩

theorem plain_responseOf_error (ioText : IoError → String) (err : Error) :
    (responseOf codec ioText (.error err)).Plain :=
  plain_json (lt_of_le_of_lt (statusCode_le err) (by decide)) _

/-- **Responses are read back.** Let the first `n` of the bytes that are sent for a result of
`handle_request`, and of any bytes after them, have arrived. If they are all the bytes of the
response and a `usize` counts its body, they are read as its status, its content type and its body,
and for an error these are its status code and a body with its text, whatever the text is; otherwise
no response is read. -/
theorem response_read_back (ioText : IoError → String) (response : Except Error Response)
    (h : (responseOf codec ioText response).Plain) (rest : List UInt8) (n : ℕ) :
    readReply ((renderResponse codec ioText response ++ rest).take n) =
        (if (responseOf codec ioText response).body.length < U64.size ∧
            (renderResponse codec ioText response).length ≤ n then
          some ⟨(responseOf codec ioText response).status,
            (responseOf codec ioText response).contentType, (responseOf codec ioText response).body⟩
        else none) ∧
      ∀ err, response = .error err → (responseOf codec ioText response).status = err.statusCode ∧
        (responseOf codec ioText response).contentType = some "application/json" ∧
        codec.read (responseOf codec ioText response).body = some (err.message ioText) := by
  refine ⟨h.readReply_take rest n, ?_⟩
  rintro err rfl
  exact ⟨rfl, rfl, codec.read_write _⟩

/-! ### The compact encoding of errors -/

def errorBody (error : String) : List UInt8 :=
  key brace "error" ++ (writeString (utf8 error) ++ close)

/-- The text in the body of an error. -/
def readErrorBody (body : List UInt8) : Option String := do
  let body ← readLit (key brace "error") body
  let (error, body) ← readText body
  if body = close then some error else none

theorem readErrorBody_errorBody (error : String) :
    readErrorBody (errorBody error) = some error := by
  simp only [readErrorBody, errorBody, readLit_append, readText_writeString, Option.bind_eq_bind,
    Option.bind_some, ↓reduceIte]

def errorJson : ErrorCodec where
  write := errorBody
  read := readErrorBody
  read_write := readErrorBody_errorBody

/-- A text of an error that looks like the end of a header and another response. -/
def forgedText : String := "\"\r\n\r\nHTTP/1.1 200 OK\r\n\r\n"

/-- The forged response is part of the text, and the bytes up to it are not yet a response. -/
theorem response_read_back_forged :
    readReply ((renderResponse errorJson (fun _ => "I/O error") (.error (.badRequest forgedText)) ++
        [88]).take 200) =
      some ⟨400, some "application/json", errorBody forgedText⟩ ∧
    readReply ((renderResponse errorJson (fun _ => "I/O error") (.error (.badRequest forgedText)) ++
        [88]).take 120) = none ∧
    readErrorBody (errorBody forgedText) = some forgedText := by
  have hplain := plain_responseOf_error errorJson (fun _ => "I/O error") (.badRequest forgedText)
  obtain ⟨hall, herr⟩ := response_read_back _ _ _ hplain [88] 200
  obtain ⟨hpart, -⟩ := response_read_back _ _ _ hplain [88] 120
  refine ⟨hall.trans (if_pos (by decide +kernel)),
    hpart.trans (if_neg (by decide +kernel)), ?_⟩
  exact (herr _ rfl).2.2

end Http

end Lazyd
