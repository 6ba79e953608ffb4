import Lazyd.Library.Utf8
import Lazyd.Remote.Challenge

/-!
# Requests on the control socket

How a request is read from a client of the control socket: what is read until the header is
complete, what is read after it, and how the bytes are taken apart. A read returns between one and
4096 bytes; a stream is what its reads return before it ends, or before a read fails.

## Main definitions

* `Http.findHeaderEnd`, `Http.parseHeaders`, `Http.parseRequest`.
* `Http.Chunk`, `Http.Stream`.
* `Http.readHead`, `Http.readBody`, `Http.readRequest`.

## Main results

* `Http.findHeaderEnd_append`, `Http.findHeaderEnd_take` : the header ends where it does in any
  prefix that contains the end.
* `Http.parseHeaders_append` : so the header says the same in any such prefix.

Source: `src/control.rs`, lines 23–28 and 200–272.
-/

namespace Lazyd

namespace Http

open Oci (isWhitespace trim splitOnce)
open Utf8

/-! ### Text -/

/-- A line without the carriage return at its end. -/
def stripCr (line : List Char) : List Char :=
  if line.getLast? = some '\r' then line.dropLast else line

/-- The loop of `str::lines`; `line` is what it has of the line that it is in. -/
def linesFrom (line : List Char) : List Char → List (List Char)
  | [] => if line = [] then [] else [line]
  | c :: input =>
    if c = '\n' then stripCr line :: linesFrom [] input else linesFrom (line ++ [c]) input

/-- `str::lines` -/
def lines (input : List Char) : List (List Char) := linesFrom [] input

/-- `str::split_whitespace` -/
def splitWhitespace (input : List Char) : List (List Char) :=
  (input.splitOnP isWhitespace).filter (· ≠ [])

/-- `usize::from_str` -/
def parseUsize (input : List Char) : Option ℕ :=
  let digits := if input.head? = some '+' then input.tail else input
  if digits ≠ [] ∧ digits.all Char.isDigit then
    let n := digits.foldl (fun n c => 10 * n + (c.toNat - '0'.toNat)) 0
    if n < U64.size then some n else none
  else none

/-! ### Headers -/

/-- What separates the header from the body. -/
def terminator : List UInt8 := [13, 10, 13, 10]

/-- `find_header_end` -/
def findHeaderEnd : List UInt8 → Option ℕ
  | [] => none
  | b :: buf =>
    if terminator <+: b :: buf then some 4 else (findHeaderEnd buf).map (· + 1)

/-- The number in a line, if the line is a `Content-Length` header with a number. -/
def contentLength (line : List Char) : Option ℕ :=
  match splitOnce ':' line with
  | none => none
  | some (name, value) =>
    if name.map Char.toLower = "content-length".toList then parseUsize (trim value) else none

/-- `parse_headers`: the end of the header and the length of the body. -/
def parseHeaders (buf : List UInt8) : Except Error (Option (ℕ × ℕ)) :=
  match findHeaderEnd buf with
  | none => .ok none
  | some headerEnd =>
    match fromUtf8 (buf.take (headerEnd - 4)) with
    | .error err => .error (.badRequest err.text)
    | .ok head =>
      .ok (some (headerEnd, (((lines head).drop 1).findSome? contentLength).getD 0))

/-- The method and the path in the first line of a header. -/
def requestLine (head : List Char) : Except Error (String × String) :=
  match lines head with
  | [] => .error (.badRequest "missing request line")
  | line :: _ =>
    match splitWhitespace line with
    | [] => .error (.badRequest "missing method")
    | [_] => .error (.badRequest "missing path")
    | method :: path :: _ => .ok (String.ofList method, String.ofList path)

/-- `Request` -/
structure Request where
  method : String
  path : String
  body : List UInt8
  deriving DecidableEq, Repr

/-- The second part of `read_request`: the request in the bytes that have been read. -/
def parseRequest (buf : List UInt8) : Except Error Request :=
  match findHeaderEnd buf with
  | none => .error (.badRequest "malformed HTTP request")
  | some headerEnd =>
    match fromUtf8 (buf.take (headerEnd - 4)) with
    | .error err => .error (.badRequest err.text)
    | .ok head =>
      match requestLine head with
      | .error err => .error err
      | .ok (method, path) => .ok { method, path, body := buf.drop headerEnd }

/-! ### Reading -/

/-- What a read returns before the end of the stream. -/
structure Chunk where
  bytes : List UInt8
  ne_nil : bytes ≠ []
  length_le : bytes.length ≤ 4096
  deriving DecidableEq

/-- The bytes of some reads. -/
def bytesOf (chunks : List Chunk) : List UInt8 := chunks.flatMap Chunk.bytes

/-- What is read from a client. After the chunks the stream has ended, or a read fails. -/
structure Stream where
  chunks : List Chunk
  failure : Option IoError

/-- All bytes that can be read. -/
def Stream.bytes (stream : Stream) : List UInt8 := bytesOf stream.chunks

/-- The read after the last chunk, by a loop that leaves at the end of the stream. -/
def endOfStream {α : Type} (failure : Option IoError) (result : α) : Except Error α :=
  match failure with
  | none => .ok result
  | some err => .error (.io err)

/-- The inner loop of `read_request`: the bytes that have been read when there are `total`, and the
chunks that have not been read. -/
def readBody (failure : Option IoError) (total : ℕ) (buf : List UInt8) :
    List Chunk → Except Error (List UInt8 × List Chunk)
  | [] => if buf.length < total then endOfStream failure (buf, []) else .ok (buf, [])
  | chunk :: chunks =>
    if buf.length < total then readBody failure total (buf ++ chunk.bytes) chunks
    else .ok (buf, chunk :: chunks)

/-- The outer loop of `read_request`, up to where the inner one starts: what the header says, if
there is one, the bytes that have been read and the chunks that have not. -/
def readHead (failure : Option IoError) (buf : List UInt8) :
    List Chunk → Except Error (Option (ℕ × ℕ) × List UInt8 × List Chunk)
  | [] => endOfStream failure (none, buf, [])
  | chunk :: chunks =>
    match parseHeaders (buf ++ chunk.bytes) with
    | .error err => .error err
    | .ok (some header) => .ok (some header, buf ++ chunk.bytes, chunks)
    | .ok none =>
      if 1024 * 1024 < (buf ++ chunk.bytes).length then .error (.badRequest "request too large")
      else readHead failure (buf ++ chunk.bytes) chunks

/-- `read_request`: the request, and the chunks that have not been read. -/
def readRequest (stream : Stream) : Except Error (Request × List Chunk) := do
  let (header, buf, rest) ← readHead stream.failure [] stream.chunks
  let (buf, rest) ← match header with
    | none => .ok (buf, rest)
    | some (headersEnd, contentLen) =>
      readBody stream.failure (U64.add headersEnd contentLen) buf rest
  let request ← parseRequest buf
  return (request, rest)

/-! ### Where the header ends -/

theorem findHeaderEnd_cons (b : UInt8) (buf : List UInt8) :
    findHeaderEnd (b :: buf) =
      if terminator <+: b :: buf then some 4 else (findHeaderEnd buf).map (· + 1) := rfl

theorem findHeaderEnd_bounds {buf : List UInt8} {headerEnd : ℕ}
    (h : findHeaderEnd buf = some headerEnd) : 4 ≤ headerEnd ∧ headerEnd ≤ buf.length := by
  induction buf generalizing headerEnd with
  | nil => exact nomatch h
  | cons b buf ih =>
    rw [findHeaderEnd_cons] at h
    split_ifs at h with hbegins
    · obtain rfl := Option.some.inj h
      exact ⟨le_rfl, hbegins.length_le⟩
    · obtain ⟨e, he, rfl⟩ := Option.map_eq_some_iff.mp h
      have hle := ih he
      rw [List.length_cons]
      omega

/-- The header ends where it does in every buffer that begins with the same bytes. -/
theorem findHeaderEnd_append {buf : List UInt8} {headerEnd : ℕ}
    (h : findHeaderEnd buf = some headerEnd) (rest : List UInt8) :
    findHeaderEnd (buf ++ rest) = some headerEnd := by
  induction buf generalizing headerEnd with
  | nil => exact nomatch h
  | cons b buf ih =>
    rw [findHeaderEnd_cons] at h
    rw [List.cons_append, findHeaderEnd_cons]
    by_cases hbegins : terminator <+: b :: buf
    · have hlonger : terminator <+: b :: (buf ++ rest) :=
        hbegins.trans (List.prefix_append (b :: buf) rest)
      rw [if_pos hbegins] at h
      rw [if_pos hlonger, h]
    · rw [if_neg hbegins] at h
      obtain ⟨e, he, rfl⟩ := Option.map_eq_some_iff.mp h
      have hlonger : ¬ terminator <+: b :: (buf ++ rest) := by
        intro hno
        have hlen := (findHeaderEnd_bounds he).1
        have hbuf := (findHeaderEnd_bounds he).2
        refine hbegins (List.prefix_of_prefix_length_le hno (List.prefix_append (b :: buf) rest) ?_)
        rw [List.length_cons]
        change 4 ≤ buf.length + 1
        omega
      rw [if_neg hlonger, ih he, Option.map_some]

theorem findHeaderEnd_eq_none {buf rest : List UInt8} {headerEnd : ℕ}
    (h : findHeaderEnd (buf ++ rest) = some headerEnd) (hlt : buf.length < headerEnd) :
    findHeaderEnd buf = none := by
  cases hbuf : findHeaderEnd buf with
  | none => rfl
  | some e =>
    rw [findHeaderEnd_append hbuf rest] at h
    obtain rfl := Option.some.inj h
    exact absurd (findHeaderEnd_bounds hbuf).2 (by omega)

theorem findHeaderEnd_of_append {buf rest : List UInt8} {headerEnd : ℕ}
    (h : findHeaderEnd (buf ++ rest) = some headerEnd) (hle : headerEnd ≤ buf.length) :
    findHeaderEnd buf = some headerEnd := by
  induction buf generalizing headerEnd with
  | nil =>
    have hbounds := (findHeaderEnd_bounds h).1
    rw [List.length_nil] at hle
    omega
  | cons b buf ih =>
    rw [List.cons_append, findHeaderEnd_cons] at h
    rw [findHeaderEnd_cons]
    rw [List.length_cons] at hle
    split_ifs at h with hbegins
    · obtain rfl := Option.some.inj h
      have hshorter : terminator <+: b :: buf :=
        List.prefix_of_prefix_length_le hbegins (List.prefix_append (b :: buf) rest) hle
      rw [if_pos hshorter]
    · obtain ⟨e, he, rfl⟩ := Option.map_eq_some_iff.mp h
      have hshorter : ¬ terminator <+: b :: buf :=
        fun hno => hbegins (hno.trans (List.prefix_append (b :: buf) rest))
      rw [if_neg hshorter, ih he (by omega), Option.map_some]

theorem take_header {buf : List UInt8} {headerEnd : ℕ} (h : findHeaderEnd buf = some headerEnd)
    (rest : List UInt8) : (buf ++ rest).take (headerEnd - 4) = buf.take (headerEnd - 4) := by
  have hle := (findHeaderEnd_bounds h).2
  exact List.take_append_of_le_length (by omega)

/-- The header says the same in every buffer that begins with the same bytes. -/
theorem parseHeaders_append {buf : List UInt8} {headerEnd : ℕ}
    (h : findHeaderEnd buf = some headerEnd) (rest : List UInt8) :
    parseHeaders (buf ++ rest) = parseHeaders buf := by
  rw [parseHeaders, parseHeaders, findHeaderEnd_append h rest, h]
  simp only
  rw [take_header h rest]

theorem parseHeaders_none {buf : List UInt8} (h : findHeaderEnd buf = none) :
    parseHeaders buf = .ok none := by
  rw [parseHeaders, h]

/-- A header that has been parsed is there and is text. -/
theorem parseHeaders_eq_some {buf : List UInt8} {headersEnd contentLen : ℕ} :
    parseHeaders buf = .ok (some (headersEnd, contentLen)) ↔
      findHeaderEnd buf = some headersEnd ∧ ∃ head,
        fromUtf8 (buf.take (headersEnd - 4)) = .ok head ∧
        contentLen = (((lines head).drop 1).findSome? contentLength).getD 0 := by
  rw [parseHeaders]
  cases hend : findHeaderEnd buf with
  | none => simp
  | some e =>
    simp only [Option.some.injEq]
    cases hhead : fromUtf8 (buf.take (e - 4)) with
    | error err =>
      simp only [reduceCtorEq, false_iff, not_and, not_exists]
      rintro rfl head hhead'
      exact nomatch hhead.symm.trans hhead'
    | ok head =>
      simp only [Except.ok.injEq, Option.some.injEq, Prod.mk.injEq]
      constructor
      · rintro ⟨rfl, rfl⟩
        exact ⟨rfl, head, hhead, rfl⟩
      · rintro ⟨rfl, head', hhead', rfl⟩
        obtain rfl := Except.ok.inj (hhead.symm.trans hhead')
        exact ⟨rfl, rfl⟩

theorem findHeaderEnd_of_parseHeaders_none {buf : List UInt8} (h : parseHeaders buf = .ok none) :
    findHeaderEnd buf = none := by
  rw [parseHeaders] at h
  cases hend : findHeaderEnd buf with
  | none => rfl
  | some e =>
    rw [hend] at h
    simp only at h
    split at h
    · exact nomatch h
    · exact nomatch Except.ok.inj h

end Http

end Lazyd
