import Lazyd.Control.Http

/-!
# When the framing of requests is sound

A request that has been read should be a function of the bytes of the stream: its method and path
are those in the header, and its body is what the header announces, whatever the reads were. The
loops of `read_request` stop at the end of a read, the body is all that they have read after the
header, and the end of the stream ends them too; so this depends on where the reads end.

## Main definitions

* `Http.FramingSound` : what a sound framing of a stream is.
* `Http.Stream.Boundary`, `Http.Stream.CutAtEnd` : where its reads end.

## Main results

* `Http.readHead_of_header`, `Http.header_of_readHead` : what the outer loop reads.
* `Http.readBody_of_boundary`, `Http.readBody_short`, `Http.readBody_ok` : what the inner loop
  reads.
* `Http.FramingSound.request_eq` : the read boundaries do not matter where the framing is sound.
* `Http.framing_sound_iff` : the framing is sound if and only if a read ends where the request does.

Source: `src/control.rs`, lines 200–272.
-/

namespace Lazyd

namespace Http

open Utf8

variable {failure : Option IoError} {buf buf' : List UInt8} {chunks pre rest : List Chunk}
  {total headersEnd contentLen : ℕ}

/-! ### Chunks -/

@[simp]
theorem bytesOf_nil : bytesOf [] = [] := rfl

theorem bytesOf_cons (chunk : Chunk) (chunks : List Chunk) :
    bytesOf (chunk :: chunks) = chunk.bytes ++ bytesOf chunks := List.flatMap_cons

theorem bytesOf_append (chunks chunks' : List Chunk) :
    bytesOf (chunks ++ chunks') = bytesOf chunks ++ bytesOf chunks' := List.flatMap_append

theorem Chunk.length_pos (chunk : Chunk) : 0 < chunk.bytes.length :=
  List.length_pos_iff.mpr chunk.ne_nil

/-! ### The body -/

/-- The inner loop stops after some of the chunks. -/
theorem readBody_ok (h : readBody failure total buf chunks = .ok (buf', rest)) :
    ∃ pre, chunks = pre ++ rest ∧ buf' = buf ++ bytesOf pre := by
  induction chunks generalizing buf with
  | nil =>
    rw [readBody] at h
    have hresult : (buf, ([] : List Chunk)) = (buf', rest) := by
      split_ifs at h with hshort
      · cases failure with
        | none => exact Except.ok.inj h
        | some err => exact nomatch h
      · exact Except.ok.inj h
    obtain ⟨rfl, rfl⟩ := Prod.mk.inj hresult
    exact ⟨[], rfl, (List.append_nil _).symm⟩
  | cons chunk chunks ih =>
    rw [readBody] at h
    split_ifs at h with hshort
    · obtain ⟨pre, rfl, rfl⟩ := ih h
      exact ⟨chunk :: pre, rfl, by rw [bytesOf_cons, List.append_assoc]⟩
    · obtain ⟨rfl, rfl⟩ := Prod.mk.inj (Except.ok.inj h)
      exact ⟨[], rfl, (List.append_nil _).symm⟩

/-- Where a read ends after `total` bytes, the inner loop stops there. -/
theorem readBody_of_boundary (h : (buf ++ bytesOf pre).length = total) :
    readBody failure total buf (pre ++ rest) = .ok (buf ++ bytesOf pre, rest) := by
  induction pre generalizing buf with
  | nil =>
    rw [bytesOf_nil, List.append_nil] at h ⊢
    rw [List.nil_append]
    have hlong : ¬ buf.length < total := by omega
    cases rest with
    | nil => rw [readBody, if_neg hlong]
    | cons chunk rest => rw [readBody, if_neg hlong]
  | cons chunk pre ih =>
    have hshort : buf.length < total := by
      have hpos := chunk.length_pos
      rw [bytesOf_cons, List.length_append, List.length_append] at h
      omega
    rw [bytesOf_cons, ← List.append_assoc] at h ⊢
    rw [List.cons_append, readBody, if_pos hshort]
    exact ih h

/-- A stream that ends before `total` bytes ends the inner loop. -/
theorem readBody_short (h : (buf ++ bytesOf chunks).length < total) :
    readBody failure total buf chunks = endOfStream failure (buf ++ bytesOf chunks, []) := by
  induction chunks generalizing buf with
  | nil =>
    rw [bytesOf_nil, List.append_nil] at h ⊢
    rw [readBody, if_pos h]
  | cons chunk chunks ih =>
    have hshort : buf.length < total := by
      rw [List.length_append] at h
      omega
    rw [bytesOf_cons, ← List.append_assoc] at h ⊢
    rw [readBody, if_pos hshort]
    exact ih h

theorem exists_readBody (h : total ≤ (buf ++ bytesOf chunks).length) :
    ∃ buf' rest, readBody failure total buf chunks = .ok (buf', rest) := by
  induction chunks generalizing buf with
  | nil =>
    rw [bytesOf_nil, List.append_nil] at h
    exact ⟨buf, [], by rw [readBody, if_neg (by omega)]⟩
  | cons chunk chunks ih =>
    rw [readBody]
    split_ifs with hshort
    · rw [bytesOf_cons, ← List.append_assoc] at h
      exact ih h
    · exact ⟨buf, chunk :: chunks, rfl⟩

/-! ### The header -/

/-- No read ends in the header after more than 1 MiB. -/
def HeaderFits (buf : List UInt8) (chunks : List Chunk) (headersEnd : ℕ) : Prop :=
  ∀ pre, pre <+: chunks → (buf ++ bytesOf pre).length < headersEnd →
    (buf ++ bytesOf pre).length ≤ 1024 * 1024

/-- The chunks up to the one that has the end of the header. -/
structure Completes (buf : List UInt8) (pre : List Chunk) (headersEnd : ℕ) : Prop where
  complete : headersEnd ≤ (buf ++ bytesOf pre).length
  first : ∀ pre', pre' <+: pre → pre' ≠ pre → (buf ++ bytesOf pre').length < headersEnd

theorem HeaderFits.tail {chunk : Chunk} (h : HeaderFits buf (chunk :: chunks) headersEnd) :
    HeaderFits (buf ++ chunk.bytes) chunks headersEnd := by
  intro pre hpre
  have hfits := h (chunk :: pre) ((List.prefix_cons_inj chunk).mpr hpre)
  rwa [bytesOf_cons, ← List.append_assoc] at hfits

theorem Completes.cons {chunk : Chunk} (h : Completes (buf ++ chunk.bytes) pre headersEnd)
    (hbuf : buf.length < headersEnd) : Completes buf (chunk :: pre) headersEnd := by
  refine ⟨?_, ?_⟩
  · rw [bytesOf_cons, ← List.append_assoc]
    exact h.complete
  · rintro (_ | ⟨chunk', pre'⟩) hbegins hne
    · rwa [bytesOf_nil, List.append_nil]
    · obtain ⟨rfl, hbegins'⟩ := List.cons_prefix_cons.mp hbegins
      rw [bytesOf_cons, ← List.append_assoc]
      exact h.first pre' hbegins' fun heq => hne (heq ▸ rfl)

/-- The outer loop reads the chunks up to the one that has the end of the header. -/
theorem readHead_of_header (hend : findHeaderEnd (buf ++ bytesOf chunks) = some headersEnd)
    (hparse : parseHeaders (buf ++ bytesOf chunks) = .ok (some (headersEnd, contentLen)))
    (hbuf : buf.length < headersEnd) (hfits : HeaderFits buf chunks headersEnd) :
    ∃ pre rest, chunks = pre ++ rest ∧ Completes buf pre headersEnd ∧
      readHead failure buf chunks =
        .ok (some (headersEnd, contentLen), buf ++ bytesOf pre, rest) := by
  induction chunks generalizing buf with
  | nil =>
    have hle := (findHeaderEnd_bounds hend).2
    rw [bytesOf_nil, List.append_nil] at hle
    omega
  | cons chunk chunks ih =>
    rw [bytesOf_cons, ← List.append_assoc] at hend hparse
    rw [readHead]
    by_cases hlt : (buf ++ chunk.bytes).length < headersEnd
    · -- the header is not complete
      have hlimit : ¬ 1024 * 1024 < (buf ++ chunk.bytes).length := by
        have hle := hfits.tail [] List.nil_prefix
        rw [bytesOf_nil, List.append_nil] at hle
        exact Nat.not_lt.mpr (hle hlt)
      rw [parseHeaders_none (findHeaderEnd_eq_none hend hlt)]
      simp only [if_neg hlimit]
      obtain ⟨pre, rest, rfl, hcompletes, hread⟩ := ih hend hparse hlt hfits.tail
      refine ⟨chunk :: pre, rest, rfl, hcompletes.cons hbuf, ?_⟩
      rw [bytesOf_cons, ← List.append_assoc]
      exact hread
    · -- it is complete, and the first bytes say what all the bytes say
      have hle := Nat.not_lt.mp hlt
      rw [parseHeaders_append (findHeaderEnd_of_append hend hle)] at hparse
      rw [hparse]
      refine ⟨[chunk], chunks, rfl, Completes.cons ⟨?_, ?_⟩ hbuf, ?_⟩
      · rwa [bytesOf_nil, List.append_nil]
      · intro pre' hbegins hne
        exact absurd (List.prefix_nil.mp hbegins) hne
      · rw [bytesOf_cons, bytesOf_nil, List.append_nil]

/-- What the outer loop can do with the first chunk. -/
theorem readHead_cons_eq_ok {chunk : Chunk} {r : Option (ℕ × ℕ) × List UInt8 × List Chunk}
    (h : readHead failure buf (chunk :: chunks) = .ok r) :
    (∃ header, parseHeaders (buf ++ chunk.bytes) = .ok (some header) ∧
      r = (some header, buf ++ chunk.bytes, chunks)) ∨
    (parseHeaders (buf ++ chunk.bytes) = .ok none ∧
      (buf ++ chunk.bytes).length ≤ 1024 * 1024 ∧
      readHead failure (buf ++ chunk.bytes) chunks = .ok r) := by
  rw [readHead] at h
  cases hparse : parseHeaders (buf ++ chunk.bytes) with
  | error err =>
    rw [hparse] at h
    exact nomatch h
  | ok header =>
    rw [hparse] at h
    cases header with
    | some header => exact Or.inl ⟨header, rfl, (Except.ok.inj h).symm⟩
    | none =>
      simp only at h
      split_ifs at h with hlimit
      exact Or.inr ⟨rfl, Nat.not_lt.mp hlimit, h⟩

/-- A header that the outer loop has found is the one that all the bytes have. -/
theorem header_of_readHead (hbuf : buf.length ≤ 1024 * 1024)
    (h : readHead failure buf chunks = .ok (some (headersEnd, contentLen), buf', rest)) :
    parseHeaders (buf ++ bytesOf chunks) = .ok (some (headersEnd, contentLen)) ∧
      HeaderFits buf chunks headersEnd := by
  induction chunks generalizing buf with
  | nil =>
    rw [readHead] at h
    cases failure with
    | none => exact nomatch Except.ok.inj h
    | some err => exact nomatch h
  | cons chunk chunks ih =>
    have hcons : buf ++ bytesOf (chunk :: chunks) = buf ++ chunk.bytes ++ bytesOf chunks := by
      rw [bytesOf_cons, List.append_assoc]
    rcases readHead_cons_eq_ok h with ⟨header, hparse, hr⟩ | ⟨hparse, hlen, hrest⟩
    · obtain rfl := Option.some.inj (Prod.mk.inj hr).1
      have hend := (parseHeaders_eq_some.mp hparse).1
      refine ⟨?_, ?_⟩
      · rw [hcons, parseHeaders_append hend, hparse]
      · rintro (_ | ⟨chunk', pre⟩) hbegins hlt
        · rwa [bytesOf_nil, List.append_nil]
        · obtain ⟨rfl, -⟩ := List.cons_prefix_cons.mp hbegins
          have hle := (findHeaderEnd_bounds hend).2
          rw [bytesOf_cons, ← List.append_assoc, List.length_append] at hlt
          omega
    · obtain ⟨hheader, hfits⟩ := ih hlen hrest
      refine ⟨hcons ▸ hheader, ?_⟩
      rintro (_ | ⟨chunk', pre⟩) hbegins hlt
      · rwa [bytesOf_nil, List.append_nil]
      · obtain ⟨rfl, hbegins'⟩ := List.cons_prefix_cons.mp hbegins
        rw [bytesOf_cons, ← List.append_assoc] at hlt ⊢
        exact hfits pre hbegins' hlt

theorem readHead_none (hbuf : findHeaderEnd buf = none)
    (h : readHead failure buf chunks = .ok (none, buf', rest)) : findHeaderEnd buf' = none := by
  induction chunks generalizing buf with
  | nil =>
    rw [readHead] at h
    cases failure with
    | none =>
      obtain ⟨-, rfl, -⟩ : _ ∧ buf = buf' ∧ _ := by
        simpa only [endOfStream, Except.ok.injEq, Prod.mk.injEq] using h
      exact hbuf
    | some err => exact nomatch h
  | cons chunk chunks ih =>
    rcases readHead_cons_eq_ok h with ⟨header, -, hr⟩ | ⟨hparse, -, hrest⟩
    · exact nomatch hr
    · exact ih (findHeaderEnd_of_parseHeaders_none hparse) hrest

/-! ### The request -/

/-- A request is what the bytes up to the end of the header and after it say. -/
theorem parseRequest_eq_ok {request : Request} :
    parseRequest buf = .ok request ↔ ∃ headerEnd head, findHeaderEnd buf = some headerEnd ∧
      fromUtf8 (buf.take (headerEnd - 4)) = .ok head ∧
      requestLine head = .ok (request.method, request.path) ∧
      request.body = buf.drop headerEnd := by
  rw [parseRequest]
  constructor
  · intro h
    cases hend : findHeaderEnd buf with
    | none =>
      rw [hend] at h
      exact nomatch h
    | some e =>
      rw [hend] at h
      simp only at h
      cases hhead : fromUtf8 (buf.take (e - 4)) with
      | error err =>
        rw [hhead] at h
        exact nomatch h
      | ok head =>
        rw [hhead] at h
        simp only at h
        cases hline : requestLine head with
        | error err =>
          rw [hline] at h
          exact nomatch h
        | ok line =>
          rw [hline] at h
          obtain rfl := Except.ok.inj h
          exact ⟨e, head, rfl, hhead, hline, rfl⟩
  · rintro ⟨e, head, hend, hhead, hline, hbody⟩
    rw [hend]
    simp only
    rw [hhead]
    simp only
    rw [hline, ← hbody]

/-- A request is read when its header has been found, and the body has been read up to where the
header says. -/
theorem readRequest_eq_ok {stream : Stream} {request : Request} :
    readRequest stream = .ok (request, rest) ↔ ∃ headersEnd contentLen buf mid buf',
      readHead stream.failure [] stream.chunks =
        .ok (some (headersEnd, contentLen), buf, mid) ∧
      readBody stream.failure (U64.add headersEnd contentLen) buf mid = .ok (buf', rest) ∧
      parseRequest buf' = .ok request := by
  rw [readRequest]
  constructor
  · intro h
    cases hhead : readHead stream.failure [] stream.chunks with
    | error err =>
      rw [hhead] at h
      exact nomatch h
    | ok result =>
      obtain ⟨header, buf, mid⟩ := result
      rw [hhead] at h
      cases header with
      | none =>
        -- what has been read has no header
        have hnone := readHead_none rfl hhead
        have herr : parseRequest buf = .error (.badRequest "malformed HTTP request") := by
          rw [parseRequest, hnone]
        simp only [bind, Except.bind] at h
        rw [herr] at h
        exact nomatch h
      | some header =>
        simp only [bind, Except.bind] at h
        cases hbody : readBody stream.failure (U64.add header.1 header.2) buf mid with
        | error err =>
          rw [hbody] at h
          exact nomatch h
        | ok result =>
          rw [hbody] at h
          simp only at h
          cases hrequest : parseRequest result.1 with
          | error err =>
            rw [hrequest] at h
            exact nomatch h
          | ok request' =>
            rw [hrequest] at h
            obtain ⟨rfl, rfl⟩ := Prod.mk.inj (Except.ok.inj h)
            exact ⟨header.1, header.2, buf, mid, result.1, rfl, hbody, hrequest⟩
  · rintro ⟨headersEnd, contentLen, buf, mid, buf', hhead, hbody, hrequest⟩
    rw [hhead]
    simp only [bind, Except.bind]
    rw [hbody]
    simp only
    rw [hrequest]
    rfl

/-! ### Sound framing -/

/-- **Sound framing of a stream.** The end of the header and the announced length are never added up
to more than a `usize`. A request that is read has the method and the path in the header of the
stream, and its body is the announced number of bytes after it, which are all there. -/
structure FramingSound (stream : Stream) : Prop where
  no_overflow : ∀ headersEnd contentLen buf rest, readHead stream.failure [] stream.chunks =
    .ok (some (headersEnd, contentLen), buf, rest) → headersEnd + contentLen < U64.size
  framed : ∀ request rest, readRequest stream = .ok (request, rest) →
    ∃ headersEnd contentLen head,
      parseHeaders stream.bytes = .ok (some (headersEnd, contentLen)) ∧
      headersEnd + contentLen ≤ stream.bytes.length ∧
      fromUtf8 (stream.bytes.take (headersEnd - 4)) = .ok head ∧
      requestLine head = .ok (request.method, request.path) ∧
      request.body = (stream.bytes.drop headersEnd).take contentLen

/-- The read boundaries do not matter: streams with the same bytes have the same request. -/
theorem FramingSound.request_eq {stream stream' : Stream} (h : FramingSound stream)
    (h' : FramingSound stream') (hbytes : stream.bytes = stream'.bytes) {request request' : Request}
    {rest rest' : List Chunk} (hread : readRequest stream = .ok (request, rest))
    (hread' : readRequest stream' = .ok (request', rest')) : request = request' := by
  obtain ⟨e, n, head, hparse, -, hhead, hline, hbody⟩ := h.framed request rest hread
  obtain ⟨e', n', head', hparse', -, hhead', hline', hbody'⟩ := h'.framed request' rest' hread'
  rw [← hbytes] at hparse' hhead' hbody'
  obtain ⟨rfl, rfl⟩ := Prod.mk.inj (Option.some.inj (Except.ok.inj (hparse.symm.trans hparse')))
  obtain rfl := Except.ok.inj (hhead.symm.trans hhead')
  obtain ⟨hmethod, hpath⟩ := Prod.mk.inj (Except.ok.inj (hline.symm.trans hline'))
  obtain ⟨method, path, body⟩ := request
  obtain ⟨method', path', body'⟩ := request'
  simp only at hmethod hpath hbody hbody'
  rw [hmethod, hpath, hbody, hbody']

/-- A read ends after `n` bytes. -/
def Stream.Boundary (stream : Stream) (n : ℕ) : Prop :=
  ∃ pre, pre <+: stream.chunks ∧ (bytesOf pre).length = n

/-- The reads of a stream end where its request does. If the header says where that is and is not
too large, the position is a `usize`; and if the header has a request line, then either a read ends
there, or a read fails before. -/
def Stream.CutAtEnd (stream : Stream) : Prop :=
  ∀ headersEnd contentLen, parseHeaders stream.bytes = .ok (some (headersEnd, contentLen)) →
    HeaderFits [] stream.chunks headersEnd →
    headersEnd + contentLen < U64.size ∧
      ((∃ head line, fromUtf8 (stream.bytes.take (headersEnd - 4)) = .ok head ∧
          requestLine head = .ok line) →
        stream.Boundary (headersEnd + contentLen) ∨
          stream.failure ≠ none ∧ stream.bytes.length < headersEnd + contentLen)

variable {stream : Stream}

/-- Where the header of a stream is parsed and fits, the outer loop finds it. -/
theorem readHead_of_parseHeaders
    (hparse : parseHeaders stream.bytes = .ok (some (headersEnd, contentLen)))
    (hfits : HeaderFits [] stream.chunks headersEnd) :
    ∃ pre rest, stream.chunks = pre ++ rest ∧ Completes [] pre headersEnd ∧
      readHead stream.failure [] stream.chunks =
        .ok (some (headersEnd, contentLen), bytesOf pre, rest) := by
  have hend := (parseHeaders_eq_some.mp hparse).1
  have hpos : ([] : List UInt8).length < headersEnd := by
    have hle := (findHeaderEnd_bounds hend).1
    rw [List.length_nil]
    omega
  exact readHead_of_header hend hparse hpos hfits

/-- The request in what has been read, if that has the whole header. -/
theorem parseRequest_of_prefix {request : Request} {buf rest : List UInt8}
    (hend : findHeaderEnd (buf ++ rest) = some headersEnd) (hle : headersEnd ≤ buf.length) :
    parseRequest buf = .ok request ↔ ∃ head,
      fromUtf8 ((buf ++ rest).take (headersEnd - 4)) = .ok head ∧
      requestLine head = .ok (request.method, request.path) ∧
      request.body = buf.drop headersEnd := by
  have hbuf := findHeaderEnd_of_append hend hle
  rw [parseRequest_eq_ok, take_header hbuf]
  constructor
  · rintro ⟨e, head, he, hhead, hline, hbody⟩
    obtain rfl := Option.some.inj (hbuf.symm.trans he)
    exact ⟨head, hhead, hline, hbody⟩
  · rintro ⟨head, hhead, hline, hbody⟩
    exact ⟨headersEnd, head, hbuf, hhead, hline, hbody⟩

theorem Completes.prefix_of_boundary {q : List Chunk} (h : Completes [] pre headersEnd)
    (hpre : pre <+: chunks) (hq : q <+: chunks) (hle : headersEnd ≤ (bytesOf q).length) :
    pre <+: q := by
  rcases List.prefix_or_prefix_of_prefix hpre hq with hbegins | hbegins
  · exact hbegins
  · by_cases heq : q = pre
    · rw [heq]
    · have hlt := h.first q hbegins heq
      rw [List.nil_append] at hlt
      omega

/-- What is read of a stream whose header is parsed and fits: the chunks up to the end of the
header, and those that the inner loop reads; the body is what they have after the header. -/
theorem readRequest_iff (hparse : parseHeaders stream.bytes = .ok (some (headersEnd, contentLen)))
    (hfits : HeaderFits [] stream.chunks headersEnd) (hlt : headersEnd + contentLen < U64.size)
    {request : Request} :
    readRequest stream = .ok (request, rest) ↔ ∃ pre mid, stream.chunks = pre ++ (mid ++ rest) ∧
      Completes [] pre headersEnd ∧
      readBody stream.failure (headersEnd + contentLen) (bytesOf pre) (mid ++ rest) =
        .ok (bytesOf (pre ++ mid), rest) ∧
      ∃ head, fromUtf8 (stream.bytes.take (headersEnd - 4)) = .ok head ∧
        requestLine head = .ok (request.method, request.path) ∧
        request.body = (bytesOf (pre ++ mid)).drop headersEnd := by
  obtain ⟨pre, rest₀, hchunks, hcompletes, hhead⟩ := readHead_of_parseHeaders hparse hfits
  have hend := (parseHeaders_eq_some.mp hparse).1
  have hcomplete := hcompletes.complete
  rw [List.nil_append] at hcomplete
  have hbegins (mid : List Chunk) (h : stream.chunks = pre ++ (mid ++ rest)) :
      parseRequest (bytesOf (pre ++ mid)) = .ok request ↔ ∃ head,
        fromUtf8 (stream.bytes.take (headersEnd - 4)) = .ok head ∧
        requestLine head = .ok (request.method, request.path) ∧
        request.body = (bytesOf (pre ++ mid)).drop headersEnd := by
    have hbytes : stream.bytes = bytesOf (pre ++ mid) ++ bytesOf rest := by
      rw [Stream.bytes, h, ← List.append_assoc, bytesOf_append]
    have hle : headersEnd ≤ (bytesOf (pre ++ mid)).length := by
      rw [bytesOf_append, List.length_append]
      omega
    rw [hbytes] at hend ⊢
    exact parseRequest_of_prefix hend hle
  rw [readRequest_eq_ok]
  constructor
  · rintro ⟨e, n, buf, mid₀, buf', hhead', hbody, hrequest⟩
    obtain ⟨⟨rfl, rfl⟩, rfl, rfl⟩ :
        (headersEnd = e ∧ contentLen = n) ∧ bytesOf pre = buf ∧ rest₀ = mid₀ := by
      simpa only [Except.ok.injEq, Prod.mk.injEq, Option.some.injEq] using hhead.symm.trans hhead'
    rw [U64.add_eq hlt] at hbody
    obtain ⟨mid, rfl, rfl⟩ := readBody_ok hbody
    rw [← bytesOf_append] at hbody hrequest
    exact ⟨pre, mid, hchunks, hcompletes, hbody, (hbegins mid hchunks).mp hrequest⟩
  · rintro ⟨pre', mid, hchunks', hcompletes', hbody, hrequest⟩
    -- the chunks up to the end of the header are the same
    have hpre : pre <+: stream.chunks := ⟨rest₀, hchunks.symm⟩
    have hpre' : pre' <+: stream.chunks := ⟨mid ++ rest, hchunks'.symm⟩
    have hcomplete' := hcompletes'.complete
    rw [List.nil_append] at hcomplete'
    have hle := hcompletes.prefix_of_boundary hpre hpre' hcomplete'
    have hge := hcompletes'.prefix_of_boundary hpre' hpre hcomplete
    obtain rfl := hle.eq_of_length (Nat.le_antisymm hle.length_le hge.length_le)
    obtain rfl := List.append_cancel_left (hchunks.symm.trans hchunks')
    rw [← U64.add_eq hlt] at hbody
    exact ⟨headersEnd, contentLen, bytesOf pre, mid ++ rest, _, hhead, hbody,
      (hbegins mid hchunks').mpr hrequest⟩

theorem FramingSound.cutAtEnd (h : FramingSound stream) : stream.CutAtEnd := by
  intro headersEnd contentLen hparse hfits
  obtain ⟨pre, rest, hchunks, hcompletes, hhead⟩ := readHead_of_parseHeaders hparse hfits
  have hlt := h.no_overflow _ _ _ _ hhead
  refine ⟨hlt, ?_⟩
  rintro ⟨head, ⟨method, path⟩, htext, hline⟩
  by_cases hfails : stream.failure ≠ none ∧ stream.bytes.length < headersEnd + contentLen
  · exact Or.inr hfails
  · left
    -- the inner loop does not fail
    have hbytes : stream.bytes = bytesOf pre ++ bytesOf rest := by
      rw [Stream.bytes, hchunks, bytesOf_append]
    obtain ⟨buf', rest', hbody⟩ : ∃ buf' rest', readBody stream.failure
        (headersEnd + contentLen) (bytesOf pre) rest = .ok (buf', rest') := by
      by_cases hshort : (bytesOf pre ++ bytesOf rest).length < headersEnd + contentLen
      · rw [readBody_short hshort]
        rw [← hbytes] at hshort
        obtain hnone : stream.failure = none := by_contra fun hne => hfails ⟨hne, hshort⟩
        rw [hnone]
        exact ⟨_, _, rfl⟩
      · exact exists_readBody (Nat.not_lt.mp hshort)
    -- so there is a request, and the length of its body says where the reads end
    obtain ⟨mid, rfl, rfl⟩ := readBody_ok hbody
    rw [← bytesOf_append] at hbody
    have hread : readRequest stream =
        .ok (⟨method, path, (bytesOf (pre ++ mid)).drop headersEnd⟩, rest') :=
      (readRequest_iff hparse hfits hlt).mpr
        ⟨pre, mid, hchunks, hcompletes, hbody, head, htext, hline, rfl⟩
    obtain ⟨e, n, -, hparse', hlen, -, -, hbodyOf⟩ := h.framed _ _ hread
    obtain ⟨rfl, rfl⟩ := Prod.mk.inj (Option.some.inj (Except.ok.inj (hparse.symm.trans hparse')))
    refine ⟨pre ++ mid, ?_, ?_⟩
    · rw [hchunks, ← List.append_assoc]
      exact List.prefix_append _ _
    · have hlength := congrArg List.length hbodyOf
      have hcomplete := hcompletes.complete
      rw [List.nil_append] at hcomplete
      rw [List.length_drop, List.length_take, List.length_drop] at hlength
      rw [bytesOf_append, List.length_append] at hlength ⊢
      omega

theorem Stream.CutAtEnd.framingSound (h : stream.CutAtEnd) : FramingSound stream := by
  refine ⟨fun headersEnd contentLen buf rest hhead => ?_, fun request rest hread => ?_⟩
  · obtain ⟨hparse, hfits⟩ := header_of_readHead (Nat.zero_le _) hhead
    exact (h _ _ hparse hfits).1
  · obtain ⟨headersEnd, contentLen, _, _, _, hhead, -⟩ := readRequest_eq_ok.mp hread
    obtain ⟨hparse, hfits⟩ := header_of_readHead (Nat.zero_le _) hhead
    obtain ⟨hlt, hboundary⟩ := h _ _ hparse hfits
    obtain ⟨pre, mid, hchunks, hcompletes, hbody, head, htext, hline, hbodyOf⟩ :=
      (readRequest_iff hparse hfits hlt).mp hread
    have hcomplete := hcompletes.complete
    rw [List.nil_append] at hcomplete
    rcases hboundary ⟨head, _, htext, hline⟩ with ⟨q, hq, hlen⟩ | ⟨hfailure, hshort⟩
    · -- the inner loop stops where a read ends
      obtain ⟨mid', rfl⟩ := hcompletes.prefix_of_boundary ⟨_, hchunks.symm⟩ hq (by omega)
      obtain ⟨rest', hrest⟩ := hq
      have hmid : mid' ++ rest' = mid ++ rest := by
        rw [hchunks, List.append_assoc] at hrest
        exact List.append_cancel_left hrest
      rw [bytesOf_append] at hlen
      rw [← hmid, readBody_of_boundary hlen, ← bytesOf_append] at hbody
      obtain ⟨hsame, rfl⟩ := Prod.mk.inj (Except.ok.inj hbody)
      have hbytes : stream.bytes = bytesOf (pre ++ mid) ++ bytesOf rest' := by
        rw [Stream.bytes, hchunks, ← List.append_assoc, bytesOf_append]
      rw [← bytesOf_append, hsame] at hlen
      refine ⟨headersEnd, contentLen, head, hparse, ?_, htext, hline, ?_⟩
      · rw [hbytes, List.length_append]
        omega
      · have hbody : ((bytesOf (pre ++ mid)).drop headersEnd).length = contentLen := by
          rw [List.length_drop]
          omega
        rw [hbodyOf, hbytes, List.drop_append_of_le_length (by omega), ← hbody, List.take_left']
        rfl
    · -- the read fails
      have hbytes : stream.bytes = bytesOf pre ++ bytesOf (mid ++ rest) := by
        rw [Stream.bytes, hchunks, bytesOf_append]
      rw [hbytes] at hshort
      rw [readBody_short hshort] at hbody
      obtain ⟨err, herr⟩ := Option.ne_none_iff_exists'.mp hfailure
      rw [herr] at hbody
      exact nomatch hbody

/-- **When the framing is sound.** The framing of a stream is sound if and only if the reads of the
stream end where its request does. -/
theorem framing_sound_iff (stream : Stream) : FramingSound stream ↔ stream.CutAtEnd :=
  ⟨FramingSound.cutAtEnd, Stream.CutAtEnd.framingSound⟩

/-- One read of a request with a text after its header. -/
def oneRead (header after : String) (h : encode (header ++ "\r\n\r\n" ++ after).toList ≠ [])
    (hle : (encode (header ++ "\r\n\r\n" ++ after).toList).length ≤ 4096) : Stream where
  chunks := [⟨encode (header ++ "\r\n\r\n" ++ after).toList, h, hle⟩]
  failure := none

/-- A request without a body, and what the client sends next. -/
def pipelined : Stream := oneRead "GET / HTTP/1.1" "X" (by decide +kernel) (by decide +kernel)

/-- A client that leaves before it has sent the body. -/
def cutShort : Stream :=
  oneRead "PUT / HTTP/1.1\r\nContent-Length: 3" "X" (by decide +kernel) (by decide +kernel)

/-- A client that announces the largest `usize`. -/
def announcesTooMuch : Stream :=
  oneRead "PUT / HTTP/1.1\r\nContent-Length: 18446744073709551615" "X" (by decide +kernel)
    (by decide +kernel)

/-- The body of the first request has the bytes of the next one, that of the second ends too early,
and the third one makes the addition overflow. -/
theorem framing_unsound :
    ¬ FramingSound pipelined ∧ ¬ FramingSound cutShort ∧ ¬ FramingSound announcesTooMuch := by
  refine ⟨fun h => ?_, fun h => ?_, fun h => ?_⟩
  · have hread : readRequest pipelined = .ok (⟨"GET", "/", [88]⟩, []) := by
      decide +kernel
    have hparse : parseHeaders pipelined.bytes = .ok (some (18, 0)) := by decide +kernel
    obtain ⟨e, n, -, hparse', -, -, -, hbody⟩ := h.framed _ _ hread
    obtain ⟨rfl, rfl⟩ := Prod.mk.inj (Option.some.inj (Except.ok.inj (hparse.symm.trans hparse')))
    rw [List.take_zero] at hbody
    exact List.cons_ne_nil _ _ hbody
  · have hread : readRequest cutShort = .ok (⟨"PUT", "/", [88]⟩, []) := by
      decide +kernel
    have hparse : parseHeaders cutShort.bytes = .ok (some (37, 3)) := by decide +kernel
    have hlen : cutShort.bytes.length = 38 := by decide +kernel
    obtain ⟨e, n, -, hparse', hle, -⟩ := h.framed _ _ hread
    obtain ⟨rfl, rfl⟩ := Prod.mk.inj (Option.some.inj (Except.ok.inj (hparse.symm.trans hparse')))
    rw [hlen] at hle
    exact absurd hle (by decide)
  · have hhead : readHead announcesTooMuch.failure [] announcesTooMuch.chunks =
        .ok (some (56, 18446744073709551615), announcesTooMuch.bytes, []) := by
      decide +kernel
    exact absurd (h.no_overflow _ _ _ _ hhead) (by decide)

end Http

end Lazyd
