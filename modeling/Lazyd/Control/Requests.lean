import Lazyd.Control.Framing

/-!
# Requests are parsed completely

A request that a client writes is read as it was written, however the bytes are cut into reads. The
header is text in lines without line breaks, so the first empty line is its end; where it ends, and
what it says, does not depend on what follows it.

## Main definitions

* `Http.Message` : a request as a client writes it, and `Http.Message.bytes`, its bytes.

## Main results

* `Http.findHeaderEnd_lines` : where nonempty lines end.
* `Http.lines_joinLines` : the lines of a header.
* `Http.requestLine_joinLines` : the words of a request line.
* `Http.request_read` : a message is read as it was written.

Source: `src/control.rs`, lines 200–272.
-/

namespace Lazyd

namespace Http

open Oci (isWhitespace)
open Utf8

/-! ### Lines -/

/-- A line has no line breaks. -/
def IsLine (line : List Char) : Prop := ∀ c ∈ line, c ≠ '\r' ∧ c ≠ '\n'

/-- A word has no white space. -/
def IsWord (word : List Char) : Prop := ∀ c ∈ word, isWhitespace c = false

instance (line : List Char) : Decidable (IsLine line) := List.decidableBAll ..

instance (word : List Char) : Decidable (IsWord word) := List.decidableBAll ..

/-- Lines, each with a line break after it. -/
def endLines (lines : List (List Char)) : List Char := lines.flatMap (· ++ ['\r', '\n'])

/-- Lines with a line break between each two. -/
def joinLines : List (List Char) → List Char
  | [] => []
  | line :: lines => line ++ lines.flatMap (['\r', '\n'] ++ ·)

theorem endLines_eq_joinLines {lines : List (List Char)} (h : lines ≠ []) :
    endLines lines = joinLines lines ++ ['\r', '\n'] := by
  have hrotate (line : List Char) (lines : List (List Char)) :
      endLines (line :: lines) = joinLines (line :: lines) ++ ['\r', '\n'] := by
    induction lines generalizing line with
    | nil =>
      rw [endLines, joinLines, List.flatMap_singleton, List.flatMap_nil, List.append_nil]
    | cons line' lines ih =>
      have htail := ih line'
      rw [endLines, joinLines] at htail ⊢
      rw [List.flatMap_cons, htail, List.flatMap_cons]
      simp only [List.append_assoc]
  obtain ⟨line, lines, rfl⟩ := List.exists_cons_of_ne_nil h
  exact hrotate line lines

theorem IsLine.notMem_encode {line : List Char} (h : IsLine line) : 13 ∉ encode line := by
  intro hmem
  obtain ⟨c, hc, hcode⟩ := eq_of_mem_encode hmem (by decide)
  exact (h c hc).1 (Char.toNat_inj.mp hcode)

theorem not_terminator_at {b : UInt8} (hb : b ≠ 13) (buf : List UInt8) :
    ¬ terminator <+: b :: buf := by
  intro h
  exact hb (List.cons_prefix_cons.mp h).1.symm

theorem findHeaderEnd_skip {line : List UInt8} (h : 13 ∉ line) (rest : List UInt8) :
    findHeaderEnd (line ++ rest) = (findHeaderEnd rest).map (· + line.length) := by
  induction line with
  | nil =>
    rw [List.nil_append]
    exact Option.map_id'.symm
  | cons b line ih =>
    obtain ⟨hb, hline⟩ := not_or.mp (fun hmem => h (List.mem_cons.mpr hmem))
    rw [List.cons_append, findHeaderEnd_cons,
      if_neg (not_terminator_at (Ne.symm hb) _), ih hline, Option.map_map]
    refine congrArg (fun f => Option.map f (findHeaderEnd rest)) (funext fun n => ?_)
    rw [Function.comp_apply, List.length_cons, Nat.add_assoc]

theorem findHeaderEnd_break {b : UInt8} (hb : b ≠ 13) (rest : List UInt8) :
    findHeaderEnd (13 :: 10 :: b :: rest) = (findHeaderEnd (b :: rest)).map (· + 2) := by
  have hfirst : ¬ terminator <+: 13 :: 10 :: b :: rest := by
    intro h
    have htail := (List.cons_prefix_cons.mp (List.cons_prefix_cons.mp h).2).2
    exact hb (List.cons_prefix_cons.mp htail).1.symm
  rw [findHeaderEnd_cons, if_neg hfirst, findHeaderEnd_cons,
    if_neg (not_terminator_at (by decide) _), Option.map_map]
  rfl

/-- **Where nonempty lines end.** The header ends after the line break that follows them. -/
theorem findHeaderEnd_lines {lines : List (List Char)} (hne : lines ≠ [])
    (hlines : ∀ line ∈ lines, line ≠ [] ∧ IsLine line) (body : List UInt8) :
    findHeaderEnd (encode (endLines lines) ++ 13 :: 10 :: body) =
      some ((encode (endLines lines)).length + 2) := by
  induction lines with
  | nil => exact absurd rfl hne
  | cons line lines ih =>
    obtain ⟨-, hline⟩ := hlines line List.mem_cons_self
    have hbreak : encode ['\r', '\n'] = [13, 10] := by decide
    have hcons : encode (endLines (line :: lines)) =
        encode line ++ 13 :: 10 :: encode (endLines lines) := by
      rw [endLines, List.flatMap_cons, encode_append, encode_append, hbreak, List.append_assoc]
      rfl
    rw [hcons, List.append_assoc, findHeaderEnd_skip hline.notMem_encode]
    cases lines with
    | nil =>
      -- the last line: the two line breaks are here
      have hend : findHeaderEnd (13 :: 10 :: 13 :: 10 :: body) = some 4 := rfl
      change (findHeaderEnd (13 :: 10 :: 13 :: 10 :: body)).map _ = _
      rw [hend, Option.map_some, List.length_append]
      change some (4 + _) = some (_ + 2 + 2)
      rw [Nat.add_comm]
    | cons line' lines =>
      have hlines' : ∀ line ∈ line' :: lines, line ≠ [] ∧ IsLine line :=
        fun line h => hlines line (List.mem_cons_of_mem _ h)
      obtain ⟨hne', hline'⟩ := hlines' line' List.mem_cons_self
      -- the next line begins with another byte
      obtain ⟨b, bytes, hbytes, hb⟩ : ∃ b bytes,
          encode (endLines (line' :: lines)) = b :: bytes ∧ b ≠ 13 := by
        obtain ⟨b, bytes, hfirst⟩ :=
          List.exists_cons_of_ne_nil fun hnil => hne' (encode_eq_nil.mp hnil)
        rw [endLines, List.flatMap_cons, encode_append, encode_append, hfirst, List.append_assoc]
        refine ⟨b, _, List.cons_append, ?_⟩
        rintro rfl
        exact hline'.notMem_encode (hfirst ▸ List.mem_cons_self)
      have hnext := ih (List.cons_ne_nil _ _) hlines'
      rw [List.cons_append, List.cons_append, hbytes, List.cons_append, findHeaderEnd_break hb,
        ← List.cons_append, ← hbytes, hnext, Option.map_some, Option.map_some, List.length_append,
        List.length_cons, List.length_cons]
      congr 1
      omega

/-! ### The lines of a header -/

/-- What a line has is kept until the line ends. -/
theorem linesFrom_append {line : List Char} (h : IsLine line) (start rest : List Char) :
    linesFrom start (line ++ rest) = linesFrom (start ++ line) rest := by
  induction line generalizing start with
  | nil => rw [List.nil_append, List.append_nil]
  | cons c line ih =>
    rw [List.cons_append, linesFrom, if_neg (h c List.mem_cons_self).2,
      ih (fun c hc => h c (List.mem_cons_of_mem _ hc)), List.append_assoc]
    rfl

theorem linesFrom_break (line rest : List Char) :
    linesFrom line ('\r' :: '\n' :: rest) = line :: linesFrom [] rest := by
  have hr : ¬ '\r' = '\n' := by decide
  rw [linesFrom, if_neg hr, linesFrom, if_pos rfl, stripCr, List.getLast?_concat, if_pos rfl,
    List.dropLast_concat]

/-- The lines of a header are the lines that it is made of. -/
theorem lines_joinLines {ls : List (List Char)} (h : ∀ line ∈ ls, line ≠ [] ∧ IsLine line) :
    lines (joinLines ls) = ls := by
  cases ls with
  | nil => rfl
  | cons line ls =>
    obtain ⟨hne, hline⟩ := h line List.mem_cons_self
    rw [lines, joinLines, linesFrom_append hline, List.nil_append]
    induction ls generalizing line with
    | nil => rw [List.flatMap_nil, linesFrom, if_neg hne]
    | cons line' ls ih =>
      have h' : ∀ line ∈ line' :: ls, line ≠ [] ∧ IsLine line :=
        fun line hmem => h line (List.mem_cons_of_mem _ hmem)
      obtain ⟨hne', hline'⟩ := h' line' List.mem_cons_self
      have htail := ih line' h' hne' hline'
      rw [List.flatMap_cons, List.append_assoc, List.cons_append, List.singleton_append,
        linesFrom_break, linesFrom_append hline', List.nil_append, htail]

/-- The words of a request line. -/
theorem splitWhitespace_words {method path rest : List Char} (hmethod : method ≠ [])
    (hpath : path ≠ []) (hmethod' : IsWord method) (hpath' : IsWord path) :
    splitWhitespace (method ++ ' ' :: (path ++ ' ' :: rest)) =
      method :: path :: splitWhitespace rest := by
  have hspace : isWhitespace ' ' = true := by decide
  rw [splitWhitespace, List.splitOnP_append_cons_of_forall_mem hmethod' ' ' hspace,
    List.splitOnP_append_cons_of_forall_mem hpath' ' ' hspace]
  rw [List.filter_cons_of_pos, List.filter_cons_of_pos, splitWhitespace]
  · exact decide_eq_true hpath
  · exact decide_eq_true hmethod

/-! ### Messages -/

/-- **A request as a client writes it.** The method and the path are words, the version and the
headers are lines, and the body is as long as the first `Content-Length` header says that has a
number; without one it is empty. -/
structure Message where
  method : String
  path : String
  version : String
  headers : List String
  body : List UInt8
  method_ne : method.toList ≠ []
  path_ne : path.toList ≠ []
  method_word : IsWord method.toList
  path_word : IsWord path.toList
  version_line : IsLine version.toList
  headers_line : ∀ header ∈ headers, header.toList ≠ [] ∧ IsLine header.toList
  body_length : body.length = (headers.findSome? fun header => contentLength header.toList).getD 0

namespace Message

/-- The request line. -/
def requestLine (m : Message) : List Char :=
  m.method.toList ++ ' ' :: (m.path.toList ++ ' ' :: m.version.toList)

/-- The request line and the headers. -/
def lines (m : Message) : List (List Char) := m.requestLine :: m.headers.map String.toList

/-- Everything in front of the body. -/
def head (m : Message) : List UInt8 := encode (endLines m.lines ++ ['\r', '\n'])

/-- The bytes of a message. -/
def bytes (m : Message) : List UInt8 := m.head ++ m.body

theorem isLine_of_word {word : List Char} (h : IsWord word) : IsLine word := by
  intro c hc
  refine ⟨?_, ?_⟩
  · rintro rfl
    exact absurd (h _ hc) (by decide)
  · rintro rfl
    exact absurd (h _ hc) (by decide)

theorem isLine_of_mem (m : Message) {line : List Char} (h : line ∈ m.lines) :
    line ≠ [] ∧ IsLine line := by
  rcases List.mem_cons.mp h with rfl | h
  · refine ⟨List.append_ne_nil_of_left_ne_nil m.method_ne _, fun c hc => ?_⟩
    rcases List.mem_append.mp hc with hc | hc
    · exact isLine_of_word m.method_word c hc
    · rcases List.mem_cons.mp hc with rfl | hc
      · decide
      · rcases List.mem_append.mp hc with hc | hc
        · exact isLine_of_word m.path_word c hc
        · rcases List.mem_cons.mp hc with rfl | hc
          · decide
          · exact m.version_line c hc
  · obtain ⟨header, hheader, rfl⟩ := List.mem_map.mp h
    exact m.headers_line header hheader

theorem lines_ne_nil (m : Message) : m.lines ≠ [] := List.cons_ne_nil _ _

theorem head_eq (m : Message) : m.head = encode (joinLines m.lines) ++ terminator := by
  rw [head, endLines_eq_joinLines m.lines_ne_nil, List.append_assoc, encode_append]
  rfl

theorem findHeaderEnd_bytes (m : Message) : findHeaderEnd m.bytes = some m.head.length := by
  have hend := findHeaderEnd_lines m.lines_ne_nil (fun line h => m.isLine_of_mem h) m.body
  have hhead : m.head = encode (endLines m.lines) ++ [13, 10] := by
    rw [head, encode_append]
    rfl
  rw [bytes, hhead, List.append_assoc, List.length_append]
  exact hend

theorem take_bytes (m : Message) :
    m.bytes.take (m.head.length - 4) = encode (joinLines m.lines) := by
  have hlen : m.head.length - 4 = (encode (joinLines m.lines)).length := by
    rw [head_eq, List.length_append]
    exact Nat.add_sub_cancel _ 4
  rw [hlen, bytes, head_eq, List.append_assoc, List.take_left]

theorem parseHeaders_bytes (m : Message) :
    parseHeaders m.bytes = .ok (some (m.head.length, m.body.length)) := by
  refine parseHeaders_eq_some.mpr
    ⟨m.findHeaderEnd_bytes, joinLines m.lines, ?_, ?_⟩
  · rw [m.take_bytes, fromUtf8_encode]
  · rw [lines_joinLines fun line h => m.isLine_of_mem h, m.body_length, lines, List.drop_one,
      List.tail_cons, List.findSome?_map]
    rfl

theorem requestLine_lines (m : Message) :
    Http.requestLine (joinLines m.lines) = .ok (m.method, m.path) := by
  rw [Http.requestLine, lines_joinLines fun line h => m.isLine_of_mem h, lines]
  simp only
  rw [requestLine, splitWhitespace_words m.method_ne m.path_ne m.method_word m.path_word]
  simp only [String.ofList_toList]

end Message

/-- **Requests are parsed completely.** If the header of a message is no larger than 1 MiB and a
`usize` can count the bytes of the message, then the message is read as it was written, with any
reads of its bytes, and nothing is read after it. -/
theorem request_read (m : Message) (hhead : m.head.length ≤ 1024 * 1024)
    (hbytes : m.bytes.length < U64.size) (pieces : List Chunk) (hpieces : bytesOf pieces = m.bytes)
    (rest : List Chunk) (failure : Option IoError) :
    readRequest { chunks := pieces ++ rest, failure } =
      .ok ({ method := m.method, path := m.path, body := m.body }, rest) := by
  have hlen : m.head.length + m.body.length = m.bytes.length := List.length_append.symm
  have hend := m.findHeaderEnd_bytes
  -- what follows the message does not matter
  have hall : Stream.bytes { chunks := pieces ++ rest, failure } = m.bytes ++ bytesOf rest := by
    rw [Stream.bytes, bytesOf_append, hpieces]
  have hparse : parseHeaders (Stream.bytes { chunks := pieces ++ rest, failure }) =
      .ok (some (m.head.length, m.body.length)) := by
    rw [hall, parseHeaders_append hend, m.parseHeaders_bytes]
  have hfits : HeaderFits [] (pieces ++ rest) m.head.length := fun _ _ hlt =>
    (Nat.le_of_lt hlt).trans hhead
  obtain ⟨pre, rest₀, hchunks, hcompletes, -⟩ := readHead_of_parseHeaders hparse hfits
  -- the message ends with a read
  obtain ⟨mid, rfl⟩ := hcompletes.prefix_of_boundary ⟨rest₀, hchunks.symm⟩
    (List.prefix_append pieces rest) (by rw [hpieces]; omega)
  have hbody : readBody failure (m.head.length + m.body.length) (bytesOf pre) (mid ++ rest) =
      .ok (bytesOf (pre ++ mid), rest) := by
    rw [bytesOf_append] at hpieces ⊢
    exact readBody_of_boundary (by rw [hpieces, hlen])
  refine (readRequest_iff hparse hfits (by omega)).mpr ⟨pre, mid, List.append_assoc _ _ _,
    hcompletes, hbody, joinLines m.lines, ?_, m.requestLine_lines, ?_⟩
  · rw [hall, take_header hend, m.take_bytes, fromUtf8_encode]
  · rw [hpieces, Message.bytes, List.drop_left]

/-- A message whose body looks like the end of a header. -/
def smallMessage : Message where
  method := "PUT"
  path := "/a"
  version := "HTTP/1.1"
  headers := ["Host: é", "CONTENT-length: 4"]
  body := terminator
  method_ne := by decide
  path_ne := by decide
  method_word := by decide
  path_word := by decide
  version_line := by decide
  headers_line := by decide
  body_length := by decide +kernel

/-- Two reads of `smallMessage`; the first one ends within a character. -/
def smallPieces : List Chunk :=
  [⟨smallMessage.bytes.take 24, by decide +kernel, by decide +kernel⟩,
    ⟨smallMessage.bytes.drop 24, by decide +kernel, by decide +kernel⟩]

/-- `smallMessage` is read, and what the client sends next is not. -/
theorem request_read_smallMessage :
    readRequest { chunks := smallPieces ++ pipelined.chunks, failure := none } =
      .ok ({ method := "PUT", path := "/a", body := [13, 10, 13, 10] }, pipelined.chunks) :=
  request_read smallMessage (by decide +kernel) (by decide +kernel) smallPieces (by decide +kernel)
    pipelined.chunks none

end Http

end Lazyd
