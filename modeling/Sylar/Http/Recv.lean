import Mathlib.Data.List.Basic
import Mathlib.Algebra.Group.Int
import Mathlib.Algebra.Group.Nat.Basic
/-! # `HttpSession::recvRequest` and `HttpConnection::recvResponse`

Both read a message into a buffer of `buff_size = GetHttpRequestBufferSize()` bytes
(`buff_size + 1` for a response, whose loop writes a `'\0'` after the data) and hand it to a
parser whose `execute(data, len)` parses the first `nparse` bytes and moves the rest to the
front, so that the loop keeps `offset = len - nparse` bytes. `http_parser.cc` is not among the
sources: the parser is a `Parser`, any state with the calls the loops make, and the one fact
about `execute` the loops rely on, `nparse <= len`. The socket is a `Wire`, the segments the
kernel hands out, so a run is fixed by how the peer's bytes arrive.

* The header loop (`recvHeader`, the same in both): `read` into the free part of the buffer,
  `execute`, and `close()` on a parser error or when `offset` reaches `buff_size`, until the
  parser is finished.
* The body (`recvBody`): with `length = getContentLength() > 0`, the first `length` buffered
  bytes, then `readFixSize` of the rest. Buffered bytes past the body are never used.
* The chunked branch of `recvResponse` (`recvChunks`): per chunk a size line parsed by
  `execute(data, len, true)` (`recvChunkSize`), then `content_len` bytes of data and two more,
  skipped unread (`chunkData`), until the parser sets `chunks_done`.

The main results hold for every parser, every buffer size and every way the bytes arrive.
`recvRequest_frames`: a request is parsed from the front of the stream, its body is the next
`getContentLength()` bytes, and what else was read, at most `buff_size` bytes, is dropped.
`recvResponse_frames`: the same for a response without chunks, and for a chunked one the stream
is the header, then each chunk's size line, data and two skipped bytes, and the body is the
chunks' data; either body is then inflated by its `content-encoding`. -/

namespace Sylar.Http.Recv

variable {σ : Type}

/-! ## The socket -/

/-- The bytes the peer sends, as the kernel hands them out: a `read` returns at most one segment,
and an empty segment is a `read` that returns `0` or `-1` (the peer closed the connection, or the
receive timeout ran out). -/
abbrev Wire := List (List Char)

/-- `SocketStream::read(buffer, length)`: the first `length` bytes of the next segment; `none` for
a return `<= 0`, which a `read` of `0` bytes also gives. -/
def read (length : Nat) : Wire → Option (List Char × Wire)
  | [] => none
  | seg :: rest =>
    if length = 0 ∨ seg = [] then none
    else some (seg.take length, if length < seg.length then seg.drop length :: rest else rest)

/-- **What a `read` returns**: between one and `length` bytes, from the front of the wire. -/
theorem read_spec {length : Nat} {w w' : Wire} {c : List Char}
    (h : read length w = some (c, w')) :
    c ++ w'.flatten = w.flatten ∧ 0 < c.length ∧ c.length ≤ length := by
  cases w with
  | nil => simp [read] at h
  | cons seg rest =>
    simp only [read] at h
    split at h
    · cases h
    · rename_i hne
      simp only [Option.some.injEq, Prod.mk.injEq] at h
      obtain ⟨rfl, rfl⟩ := h
      have hseg := List.length_pos.2 (not_or.1 hne).2
      refine ⟨?_, by simp only [List.length_take]; omega, List.length_take_le _ _⟩
      split
      · rw [List.flatten_cons, ← List.append_assoc, List.take_append_drop, List.flatten_cons]
      · rw [List.take_of_length_le (by omega)]; simp

theorem read_shrinks {length : Nat} {w w' : Wire} {c : List Char}
    (h : read length w = some (c, w')) : w'.flatten.length < w.flatten.length := by
  obtain ⟨e, hc, -⟩ := read_spec h
  rw [← e, List.length_append]; omega

/-- `while(left > 0) { rt = read(buffer, size left); if(rt <= 0) fail; left -= rt; }`: the loop of
`Stream::readFixSize` (`stream.cc`, not among the sources), which reads `size left = left`, and
of the chunked branch of `recvResponse`, which reads at most `buff_size` at a time. -/
def readLoop (size : Nat → Nat) (left : Nat) (w : Wire) : Option (List Char × Wire) :=
  if h0 : left = 0 then some ([], w)
  else match h : read (size left) w with
    | none => none
    | some (c, w') => (readLoop size (left - c.length) w').map fun r => (c ++ r.1, r.2)
termination_by left
decreasing_by have := (read_spec h).2.1; omega

/-- `Stream::readFixSize(buffer, length)`: `length` bytes, or `none` if a `read` returns `<= 0`. -/
def readFixSize (length : Nat) (w : Wire) : Option (List Char × Wire) :=
  readLoop id length w

/-- **The read loop takes exactly `left` bytes from the front of the wire**, as long as no read
asks for more than is left. -/
theorem readLoop_spec {size : Nat → Nat} (hsize : ∀ n, size n ≤ n) :
    ∀ {left : Nat} {w w' : Wire} {b : List Char}, readLoop size left w = some (b, w') →
      b ++ w'.flatten = w.flatten ∧ b.length = left := by
  intro left
  induction left using Nat.strong_induction_on with
  | _ left ih =>
    intro w w' b h
    rw [readLoop] at h
    split at h
    · cases h; simp_all
    · split at h
      · cases h
      · rename_i c w₁ hr
        obtain ⟨⟨b₁, w₂⟩, hb', he⟩ := Option.map_eq_some'.1 h
        simp only [Prod.mk.injEq] at he
        obtain ⟨rfl, rfl⟩ := he
        obtain ⟨e, hc, hle⟩ := read_spec hr
        have := hsize left
        obtain ⟨e', hl⟩ := ih _ (by omega) hb'
        refine ⟨by rw [List.append_assoc, e', e], ?_⟩
        simp only [List.length_append, hl]; omega

/-! ## The parser -/

/-- What the loops use of `HttpRequestParser` and `HttpResponseParser`: `execute(data, len)`
(for a response `execute(data, len, false)`), which parses the first `nparse` bytes of the
buffer and moves the rest to its front, and the parser's `hasError()`, `isFinished()` and
`getContentLength()`. -/
structure Parser (σ : Type) where
  execute : σ → List Char → σ × Nat
  execute_le : ∀ s data, (execute s data).2 ≤ data.length
  hasError : σ → Bool
  isFinished : σ → Bool
  getContentLength : σ → Int

/-- What the chunked branch of `recvResponse` uses besides: `execute(data, len, true)`, which
parses a chunk's size line, the fields `chunked`, `content_len` (the size of the chunk, which the
loop uses as a byte count) and `chunks_done` of the `httpclient_parser`, and the response's
`content-encoding` header. -/
structure ResponseParser (σ : Type) extends Parser σ where
  executeChunk : σ → List Char → σ × Nat
  executeChunk_le : ∀ s data, (executeChunk s data).2 ≤ data.length
  chunked : σ → Bool
  contentLen : σ → Nat
  chunksDone : σ → Bool
  contentEncoding : σ → String

/-- The parser of `execute(data, len, true)`, which the chunked branch calls for a chunk's size
line. -/
def ResponseParser.chunkParser (R : ResponseParser σ) : Parser σ :=
  { R.toParser with execute := R.executeChunk, execute_le := R.executeChunk_le }

/-! ## The parse loop -/

/-- The read at the top of a parse loop, `if(!begin || len == 0) { rt = read(data + len,
buff_size - len); ...; len += rt; }`; the header loops always read (`begin = false`). -/
def fill (buffSize : Nat) (begin : Bool) (data : List Char) (w : Wire) :
    Option (List Char × Wire) :=
  if begin = false ∨ data.length = 0 then
    (read (buffSize - data.length) w).map fun r => (data ++ r.1, r.2)
  else some (data, w)

theorem fill_spec {buffSize : Nat} {begin : Bool} {data buf : List Char} {w w' : Wire}
    (h : fill buffSize begin data w = some (buf, w')) :
    data ++ w.flatten = buf ++ w'.flatten ∧ buf.length ≤ max data.length buffSize ∧
      (w'.flatten.length < w.flatten.length ∨ begin = true ∧ w' = w) := by
  rw [fill] at h
  split at h
  · obtain ⟨⟨c, w₁⟩, hr, he⟩ := Option.map_eq_some'.1 h
    simp only [Prod.mk.injEq] at he
    obtain ⟨rfl, rfl⟩ := he
    obtain ⟨e, -, hle⟩ := read_spec hr
    refine ⟨by rw [← e, List.append_assoc], ?_, .inl (read_shrinks hr)⟩
    simp only [List.length_append]; omega
  · rename_i hb
    simp only [Option.some.injEq, Prod.mk.injEq] at h
    obtain ⟨rfl, rfl⟩ := h
    simp only [not_or, Bool.not_eq_false] at hb
    exact ⟨rfl, le_max_left _ _, .inr ⟨hb.1, rfl⟩⟩

/-- The `do { ... } while(...)` loops that feed a parser: the header loop of `recvRequest` and
`recvResponse` (`begin = false`), and the inner loop of the chunked branch, which parses a chunk's
size line (`begin = true` on its first pass). After `fill`, `execute` parses `nparse` bytes and
the buffer keeps the rest; the loop gives up on a parser error or when `offset` reaches
`buff_size`, and ends once the parser is finished. As ghost state `parsed`, the bytes the parser
consumed. It ends with the parser, what it consumed, the buffer and the wire. -/
def parseLoop (P : Parser σ) (buffSize : Nat) (begin : Bool) (s : σ) (parsed data : List Char)
    (w : Wire) : Option (σ × List Char × List Char × Wire) :=
  match h : fill buffSize begin data w with
  | none => none
  | some (buf, w') =>
    let r := P.execute s buf
    let data' := buf.drop r.2
    if P.hasError r.1 then none
    else if data'.length = buffSize then none
    else if P.isFinished r.1 then some (r.1, parsed ++ buf.take r.2, data', w')
    else parseLoop P buffSize false r.1 (parsed ++ buf.take r.2) data' w'
termination_by 2 * w.flatten.length + if begin then 1 else 0
decreasing_by
  rcases (fill_spec h).2.2 with hw | ⟨rfl, rfl⟩ <;> simp only [if_true, if_false] <;> omega

/-- The header loop of `recvRequest` and `recvResponse`, from an empty buffer. -/
def recvHeader (P : Parser σ) (buffSize : Nat) (s : σ) (w : Wire) :
    Option (σ × List Char × List Char × Wire) :=
  parseLoop P buffSize false s [] [] w

/-- The inner loop of the chunked branch, on the bytes left in the buffer. -/
def recvChunkSize (R : ResponseParser σ) (buffSize : Nat) (s : σ) (data : List Char) (w : Wire) :
    Option (σ × List Char × List Char × Wire) :=
  parseLoop R.chunkParser buffSize true s [] data w

/-- One pass of a parse loop, after a `fill` that gave the buffer `buf`. -/
theorem parseLoop_step {P : Parser σ} {buffSize : Nat} {begin : Bool} {s : σ}
    {parsed data buf : List Char} {w w' : Wire} (hf : fill buffSize begin data w = some (buf, w')) :
    parseLoop P buffSize begin s parsed data w =
      if P.hasError (P.execute s buf).1 then none
      else if (buf.drop (P.execute s buf).2).length = buffSize then none
      else if P.isFinished (P.execute s buf).1 then
        some ((P.execute s buf).1, parsed ++ buf.take (P.execute s buf).2,
          buf.drop (P.execute s buf).2, w')
      else parseLoop P buffSize false (P.execute s buf).1 (parsed ++ buf.take (P.execute s buf).2)
        (buf.drop (P.execute s buf).2) w' := by
  rw [parseLoop]; split <;> simp_all

/-- What one pass keeps: the bytes the parser consumes move from the buffer to `parsed`, and a
buffer of at most `buff_size` bytes stays below `buff_size`. -/
theorem parseLoop_pass (parsed : List Char) {buffSize n : Nat} {begin : Bool}
    {data buf : List Char} {w w' : Wire} (hf : fill buffSize begin data w = some (buf, w'))
    (hfull : ¬(buf.drop n).length = buffSize) :
    parsed ++ data ++ w.flatten = parsed ++ buf.take n ++ buf.drop n ++ w'.flatten ∧
      (data.length ≤ buffSize → (buf.drop n).length < buffSize) := by
  obtain ⟨e, hle, -⟩ := fill_spec hf
  refine ⟨?_, fun hd => ?_⟩
  · rw [List.append_assoc parsed, e, List.append_assoc parsed (List.take _ _),
      List.take_append_drop, List.append_assoc]
  · simp only [List.length_drop] at hfull ⊢; omega

/-- **A parse loop keeps the stream in order**: what the parser consumed, the buffer and the
unread wire are the stream, and the loop ends with a finished parser and no error; from a buffer
of at most `buff_size` bytes it ends below `buff_size`. -/
theorem parseLoop_spec (P : Parser σ) (buffSize : Nat) (begin : Bool) (s : σ)
    (parsed data : List Char) (w : Wire) : ∀ {s' : σ} {parsed' data' : List Char} {w' : Wire},
      parseLoop P buffSize begin s parsed data w = some (s', parsed', data', w') →
      parsed ++ data ++ w.flatten = parsed' ++ data' ++ w'.flatten ∧
        (data.length ≤ buffSize → data'.length < buffSize) ∧
        P.isFinished s' = true ∧ P.hasError s' = false := by
  induction begin, s, parsed, data, w using parseLoop.induct P buffSize with
  | case1 begin s parsed data w hf =>
    intro _ _ _ _ h; rw [parseLoop] at h; split at h <;> simp_all
  | case2 begin s parsed data w buf w₁ hf herr =>
    intro _ _ _ _ h; rw [parseLoop_step hf] at h; simp_all
  | case3 begin s parsed data w buf w₁ hf herr hfull =>
    intro _ _ _ _ h; rw [parseLoop_step hf] at h; simp_all
  | case4 =>
    rename_i begin s parsed data w buf w₁ hf r d herr hfull hfin
    intro _ _ _ _ h
    rw [parseLoop_step hf] at h
    simp only [herr, hfull, hfin, if_false, if_true, Option.some.injEq, Prod.mk.injEq] at h
    obtain ⟨rfl, rfl, rfl, rfl⟩ := h
    exact ⟨(parseLoop_pass parsed hf hfull).1, (parseLoop_pass parsed hf hfull).2, hfin,
      Bool.eq_false_iff.2 herr⟩
  | case5 =>
    rename_i begin s parsed data w buf w₁ hf r d herr hfull hfin ih
    intro _ _ _ _ h
    rw [parseLoop_step hf] at h
    simp only [herr, hfull, hfin, if_false] at h
    obtain ⟨e, hlt, hrest⟩ := ih h
    obtain ⟨e₀, hlt₀⟩ := parseLoop_pass parsed hf hfull
    exact ⟨e₀.trans e, fun hd => hlt (hlt₀ hd).le, hrest⟩

/-! ## The body -/

/-- The body of `recvRequest`, and of `recvResponse` without chunks: with
`length = getContentLength() > 0`, the first `length` of the `offset` buffered bytes (`memcpy`),
then, if `length - offset > 0`, `readFixSize` of the missing ones. The body, and as ghost state
the buffered bytes past it, which nothing uses, and the wire. -/
def recvBody (length : Int) (data : List Char) (w : Wire) :
    Option (List Char × List Char × Wire) :=
  if 0 < length then
    let body := if (data.length : Int) ≤ length then data else data.take length.toNat
    if 0 < length - data.length then
      (readFixSize (length - data.length).toNat w).map fun r => (body ++ r.1, [], r.2)
    else some (body, data.drop length.toNat, w)
  else some ([], data, w)

/-- **The body is the next `length` bytes of the stream**; bytes are dropped only when all of
the body was in the buffer, and then they are the rest of the buffer. -/
theorem recvBody_spec {length : Int} {data body dropped : List Char} {w w' : Wire}
    (h : recvBody length data w = some (body, dropped, w')) :
    data ++ w.flatten = body ++ dropped ++ w'.flatten ∧ body.length = length.toNat ∧
      (dropped ≠ [] → body.length + dropped.length = data.length) := by
  have hb : (if (data.length : Int) ≤ length then data else data.take length.toNat) =
      data.take length.toNat := by
    split
    · rw [List.take_of_length_le (by omega)]
    · rfl
  simp only [recvBody, hb] at h
  split_ifs at h with h0 h1
  · obtain ⟨⟨more, w₁⟩, hr, he⟩ := Option.map_eq_some'.1 h
    simp only [Prod.mk.injEq] at he
    obtain ⟨rfl, rfl, rfl⟩ := he
    obtain ⟨e, hl⟩ := readLoop_spec (fun _ => le_rfl) hr
    rw [List.take_of_length_le (by omega)]
    refine ⟨by rw [← e, List.append_nil, List.append_assoc], ?_, by simp⟩
    simp only [List.length_append, hl]; omega
  · simp only [Option.some.injEq, Prod.mk.injEq] at h
    obtain ⟨rfl, rfl, rfl⟩ := h
    rw [List.take_append_drop]
    refine ⟨rfl, by simp only [List.length_take]; omega, fun _ => ?_⟩
    simp only [List.length_take, List.length_drop]; omega
  · simp only [Option.some.injEq, Prod.mk.injEq] at h
    obtain ⟨rfl, rfl, rfl⟩ := h
    exact ⟨rfl, by simp only [List.length_nil]; omega, fun _ => by simp⟩

/-! ## The chunked branch of `recvResponse` -/

/-- The data of a chunk after its size line, `content_len = n` bytes and the two after them.
If the buffer holds them all, `body.append(data, content_len)` and the `memmove` past the two;
else all of the buffer and `n + 2 - len` more bytes, read at most `buff_size` at a time, after
which `body.resize(body.size() - 2)` cuts the two off and the buffer is empty. The body and the
buffer after it; as ghost state the chunk's data and the two bytes skipped; the wire. -/
def chunkData (buffSize n : Nat) (body data : List Char) (w : Wire) :
    Option (List Char × List Char × List Char × List Char × Wire) :=
  if n + 2 ≤ data.length then
    some (body ++ data.take n, data.drop (n + 2), data.take n, (data.drop n).take 2, w)
  else
    match readLoop (fun left => if left > buffSize then buffSize else left)
        (n + 2 - data.length) w with
    | none => none
    | some (more, w') =>
      let got := body ++ data ++ more
      some (got.take (got.length - 2), [], (data ++ more).take n, (data ++ more).drop n, w')

/-- **A chunk's data**: the buffer and the wire go on with `n` bytes of data and two skipped
bytes, the data is appended to the body, and the buffer only shrinks. -/
theorem chunkData_spec {buffSize n : Nat} {body data body' data' payload skip : List Char}
    {w w' : Wire} (h : chunkData buffSize n body data w = some (body', data', payload, skip, w')) :
    data ++ w.flatten = payload ++ skip ++ data' ++ w'.flatten ∧ body' = body ++ payload ∧
      payload.length = n ∧ skip.length = 2 ∧ data'.length ≤ data.length := by
  unfold chunkData at h
  split at h
  · simp only [Option.some.injEq, Prod.mk.injEq] at h
    obtain ⟨rfl, rfl, rfl, rfl, rfl⟩ := h
    refine ⟨?_, rfl, by simp only [List.length_take]; omega,
      by simp only [List.length_take, List.length_drop]; omega, by simp⟩
    rw [← List.drop_drop 2 n data, List.append_assoc (List.take n data), List.take_append_drop,
      List.take_append_drop]
  · split at h
    · cases h
    · rename_i hlt _ more w₁ hr
      simp only [Option.some.injEq, Prod.mk.injEq] at h
      obtain ⟨rfl, rfl, rfl, rfl, rfl⟩ := h
      obtain ⟨e, hl⟩ := readLoop_spec (fun m => by split <;> omega) hr
      have hlen : (data ++ more).length = n + 2 := by simp only [List.length_append, hl]; omega
      refine ⟨by rw [List.append_nil, List.take_append_drop, List.append_assoc, e], ?_,
        by simp only [List.length_take]; omega, by simp only [List.length_drop]; omega, by simp⟩
      rw [List.append_assoc, List.length_append, hlen, show body.length + (n + 2) - 2 =
        body.length + n by omega, List.take_append]

/-- A chunk as the chunked branch takes it (ghost state): the parser after the chunk's size line,
the bytes of the size line it consumed, the `content_len` bytes of data, and the two bytes after
them, which are skipped unread. -/
structure Chunk (σ : Type) where
  parser : σ
  head : List Char
  payload : List Char
  skip : List Char

/-- The bytes of a chunk in the stream. -/
def Chunk.bytes (c : Chunk σ) : List Char := c.head ++ c.payload ++ c.skip

/-- The outer `do { ... } while(!client_parser.chunks_done)` of the chunked branch: a size line,
then the chunk's data, until the parser sets `chunks_done`. The parser, the chunks (ghost), the
body, the buffer and the wire. -/
def recvChunks (R : ResponseParser σ) (buffSize : Nat) (s : σ) (body data : List Char)
    (w : Wire) : Option (σ × List (Chunk σ) × List Char × List Char × Wire) :=
  match h : recvChunkSize R buffSize s data w with
  | none => none
  | some (s', head, data', w') =>
    match h' : chunkData buffSize (R.contentLen s') body data' w' with
    | none => none
    | some (body', data'', payload, skip, w'') =>
      if R.chunksDone s' then some (s', [⟨s', head, payload, skip⟩], body', data'', w'')
      else (recvChunks R buffSize s' body' data'' w'').map
        fun r => (r.1, ⟨s', head, payload, skip⟩ :: r.2.1, r.2.2)
termination_by data.length + w.flatten.length
decreasing_by
  have e := congrArg List.length (parseLoop_spec R.chunkParser buffSize true s [] data w h).1
  have e' := congrArg List.length (chunkData_spec h').1
  have hs := (chunkData_spec h').2.2.2.1
  simp only [List.length_append, List.nil_append] at e e'; omega

@[simp] theorem chunkParser_isFinished (R : ResponseParser σ) :
    R.chunkParser.isFinished = R.isFinished := rfl

@[simp] theorem chunkParser_hasError (R : ResponseParser σ) :
    R.chunkParser.hasError = R.hasError := rfl

/-- One pass of the chunk loop, after a size line and the chunk's data. -/
theorem recvChunks_step {R : ResponseParser σ} {buffSize : Nat} {s s' : σ}
    {body data head data' body' data'' payload skip : List Char} {w w' w'' : Wire}
    (hc : recvChunkSize R buffSize s data w = some (s', head, data', w'))
    (hd : chunkData buffSize (R.contentLen s') body data' w' =
      some (body', data'', payload, skip, w'')) :
    recvChunks R buffSize s body data w =
      if R.chunksDone s' then some (s', [⟨s', head, payload, skip⟩], body', data'', w'')
      else (recvChunks R buffSize s' body' data'' w'').map
        fun r => (r.1, ⟨s', head, payload, skip⟩ :: r.2.1, r.2.2) := by
  rw [recvChunks]; split <;> simp_all; split <;> simp_all

/-- What one chunk does: its bytes come next in the stream, its data goes to the body, and a
buffer of at most `buff_size` bytes stays below `buff_size`. -/
theorem recvChunks_pass {R : ResponseParser σ} {buffSize : Nat} {s s' : σ}
    {body data head data' body' data'' payload skip : List Char} {w w' w'' : Wire}
    (hc : recvChunkSize R buffSize s data w = some (s', head, data', w'))
    (hd : chunkData buffSize (R.contentLen s') body data' w' =
      some (body', data'', payload, skip, w'')) :
    data ++ w.flatten = Chunk.bytes ⟨s', head, payload, skip⟩ ++ data'' ++ w''.flatten ∧
      body' = body ++ payload ∧
      (R.isFinished s' = true ∧ payload.length = R.contentLen s' ∧ skip.length = 2) ∧
      (data.length ≤ buffSize → data''.length < buffSize) := by
  obtain ⟨e, hlt, hfin, -⟩ := parseLoop_spec R.chunkParser buffSize true s [] data w hc
  obtain ⟨e', hb, hp, hs, hle⟩ := chunkData_spec hd
  refine ⟨?_, hb, ⟨hfin, hp, hs⟩, fun h => by have := hlt h; omega⟩
  rw [← List.nil_append data, e, List.append_assoc head, e']
  simp only [Chunk.bytes, List.append_assoc]

/-- **The chunk loop takes chunk after chunk from the stream**: the buffer and the wire are the
chunks' bytes, then the buffer and the wire after them; the body grows by the chunks' data; each
chunk's data is `content_len` bytes and two bytes after it are skipped; the loop stops at the
first chunk after which the parser reports `chunks_done`. -/
theorem recvChunks_spec (R : ResponseParser σ) (buffSize : Nat) (s : σ) (body data : List Char)
    (w : Wire) : ∀ {s' : σ} {cs : List (Chunk σ)} {body' data' : List Char} {w' : Wire},
      recvChunks R buffSize s body data w = some (s', cs, body', data', w') →
      data ++ w.flatten = (cs.map Chunk.bytes).flatten ++ data' ++ w'.flatten ∧
        body' = body ++ (cs.map Chunk.payload).flatten ∧
        (∀ c ∈ cs, R.isFinished c.parser = true ∧ c.payload.length = R.contentLen c.parser ∧
          c.skip.length = 2) ∧
        cs.map (fun c => R.chunksDone c.parser) = List.replicate (cs.length - 1) false ++ [true] ∧
        R.chunksDone s' = true ∧ (data.length ≤ buffSize → data'.length < buffSize) := by
  induction s, body, data, w using recvChunks.induct R buffSize with
  | case1 s body data w hc =>
    intro _ _ _ _ _ h; rw [recvChunks] at h; split at h <;> simp_all
  | case2 s body data w s' head data' w' hc hd =>
    intro _ _ _ _ _ h; rw [recvChunks] at h; split at h <;> simp_all; split at h <;> simp_all
  | case3 s body data w s' head data' w' hc body' data'' payload skip w'' hd hdone =>
    intro _ _ _ _ _ h
    rw [recvChunks_step hc hd, if_pos hdone] at h
    simp only [Option.some.injEq, Prod.mk.injEq] at h
    obtain ⟨rfl, rfl, rfl, rfl, rfl⟩ := h
    obtain ⟨e, hb, hc₁, hlt⟩ := recvChunks_pass hc hd
    refine ⟨by simpa using e, by simpa using hb, by simpa using hc₁, by simp [hdone], hdone,
      hlt⟩
  | case4 s body data w s' head data' w' hc body' data'' payload skip w'' hd hdone ih =>
    intro _ _ _ _ _ h
    rw [recvChunks_step hc hd, if_neg hdone] at h
    obtain ⟨⟨s₁, cs, b₁, d₁, w₁⟩, hr, he⟩ := Option.map_eq_some'.1 h
    simp only [Prod.mk.injEq] at he
    obtain ⟨rfl, rfl, rfl, rfl, rfl⟩ := he
    obtain ⟨e, hb, hc₁, hlt⟩ := recvChunks_pass hc hd
    obtain ⟨e₁, hb₁, hcs, hdn, hfin, hlt₁⟩ := ih hr
    have hlen : cs.length - 1 + 1 = cs.length := by
      have := congrArg List.length hdn; simp only [List.length_map, List.length_append,
        List.length_replicate, List.length_singleton] at this; omega
    refine ⟨?_, ?_, ?_, ?_, hfin, fun h => hlt₁ (hlt h).le⟩
    · rw [e, List.append_assoc _ data'', e₁]
      simp only [List.map_cons, List.flatten_cons, List.append_assoc]
    · rw [hb₁, hb]; simp only [List.map_cons, List.flatten_cons, List.append_assoc]
    · simp only [List.mem_cons, forall_eq_or_imp]; exact ⟨hc₁, hcs⟩
    · simp only [List.map_cons, hdn, List.length_cons, Nat.add_sub_cancel, hdone,
        Bool.not_eq_true]
      rw [← List.cons_append, ← List.replicate_succ, hlen]

/-! ## `recvRequest` and `recvResponse` -/

/-- What `recvRequest` and `recvResponse` return: the parser, which holds the message it filled
in (`parser->getData()`), and the body; as ghost state the bytes the header loop's parser
consumed, the chunks of a chunked response, the bytes read and never used, and the wire after. -/
structure Received (σ : Type) where
  parser : σ
  body : List Char
  parsed : List Char
  chunks : List (Chunk σ)
  dropped : List Char
  rest : Wire

/-- **`HttpSession::recvRequest()`** with a buffer of `buffSize` bytes and a parser starting in
`s`; `none` where the source calls `close()` and returns `nullptr`. -/
def recvRequest (P : Parser σ) (buffSize : Nat) (s : σ) (w : Wire) : Option (Received σ) :=
  match recvHeader P buffSize s w with
  | none => none
  | some (s, parsed, data, w) =>
    match recvBody (P.getContentLength s) data w with
    | none => none
    | some (body, dropped, w) => some ⟨s, body, parsed, [], dropped, w⟩

/-- **A request is taken from the front of the stream**: the bytes the parser consumed, the body,
the bytes dropped and the wire left are the stream; the parser is finished without error; the body
is `getContentLength()` bytes long (none if that is `<= 0`); and bytes are dropped only when they
sat in the buffer with all of the body, fewer than `buff_size` bytes together. -/
theorem recvRequest_frames (P : Parser σ) (buffSize : Nat) (s : σ) (w : Wire) (r : Received σ)
    (h : recvRequest P buffSize s w = some r) :
    P.isFinished r.parser = true ∧ P.hasError r.parser = false ∧
      w.flatten = r.parsed ++ r.body ++ r.dropped ++ r.rest.flatten ∧
      r.body.length = (P.getContentLength r.parser).toNat ∧
      (r.dropped = [] ∨ r.body.length + r.dropped.length < buffSize) := by
  unfold recvRequest at h
  split at h
  · cases h
  · rename_i s' parsed data w₁ hh
    split at h
    · cases h
    · rename_i body dropped w₂ hb
      cases h
      obtain ⟨e, hlt, hfin, herr⟩ := parseLoop_spec P buffSize false s [] [] w hh
      obtain ⟨e', hl, hd⟩ := recvBody_spec hb
      refine ⟨hfin, herr, ?_, hl, ?_⟩
      · simpa only [List.nil_append, List.append_assoc, e'] using e
      · by_cases hn : dropped = []
        · exact .inl hn
        · exact .inr (by have := hlt (Nat.zero_le _); rw [hd hn]; exact this)

/-- The parser of the examples: it consumes two bytes, is then finished, and reports a body of
three bytes. -/
def twoByteParser : Parser Bool where
  execute _ data := (true, if 2 ≤ data.length then 2 else data.length)
  execute_le _ data := by dsimp only; split <;> omega
  hasError _ := false
  isFinished := id
  getContentLength _ := 3

/-- A request whose segment carries a byte past its body: the byte is dropped. -/
theorem recvRequest_frames_pipelined :
    recvRequest twoByteParser 8 false [['G', 'E', 'a', 'b', 'c', 'X']] =
        some ⟨true, ['a', 'b', 'c'], ['G', 'E'], [], ['X'], []⟩ ∧
      [['G', 'E', 'a', 'b', 'c', 'X']].flatten = ['G', 'E'] ++ ['a', 'b', 'c'] ++ ['X'] ++ [] := by
  have h : recvRequest twoByteParser 8 false [['G', 'E', 'a', 'b', 'c', 'X']] =
      some ⟨true, ['a', 'b', 'c'], ['G', 'E'], [], ['X'], []⟩ := by
    rw [recvRequest, recvHeader, parseLoop_step (show fill 8 false [] [['G', 'E', 'a', 'b', 'c',
      'X']] = some (['G', 'E', 'a', 'b', 'c', 'X'], []) from rfl)]
    rfl
  exact ⟨h, (recvRequest_frames _ _ _ _ _ h).2.2.1⟩

/-- What the `ZlibStream`s of `recvResponse` (`CreateGzip(false)`, `CreateDeflate(false)`) make
of a body; `zlib_stream.cc` is not among the sources. -/
structure Inflate where
  gzip : List Char → List Char
  deflate : List Char → List Char

/-- `strcasecmp(a, b) == 0`: equal up to the case of ASCII letters. -/
def strcasecmpEq (a b : String) : Bool := a.data.map Char.toLower == b.data.map Char.toLower

/-- The end of `recvResponse`: a body that is not empty is inflated by the `content-encoding` it
names, `gzip` or `deflate` in any case, and kept as it is otherwise. -/
def inflateBody (Z : Inflate) (contentEncoding : String) (body : List Char) : List Char :=
  if body = [] then body
  else if strcasecmpEq contentEncoding "gzip" then Z.gzip body
  else if strcasecmpEq contentEncoding "deflate" then Z.deflate body
  else body

/-- **`HttpConnection::recvResponse()`** with a buffer of `buffSize` bytes (and the one for the
`'\0'`) and a parser starting in `s`; `none` where the source calls `close()` and returns
`nullptr`. -/
def recvResponse (R : ResponseParser σ) (Z : Inflate) (buffSize : Nat) (s : σ) (w : Wire) :
    Option (Received σ) :=
  match recvHeader R.toParser buffSize s w with
  | none => none
  | some (s, parsed, data, w) =>
    if R.chunked s then
      match recvChunks R buffSize s [] data w with
      | none => none
      | some (s, cs, body, data, w) =>
        some ⟨s, inflateBody Z (R.contentEncoding s) body, parsed, cs, data, w⟩
    else
      match recvBody (R.getContentLength s) data w with
      | none => none
      | some (body, dropped, w) =>
        some ⟨s, inflateBody Z (R.contentEncoding s) body, parsed, [], dropped, w⟩

/-- **A response is taken from the front of the stream**, its body inflated by its
`content-encoding`, and fewer than `buff_size` bytes are dropped. Without chunks the stream is
the bytes the parser consumed, the raw body of `getContentLength()` bytes, the bytes dropped and
the wire left. With chunks it is the bytes the parser consumed, then each chunk's size line,
`content_len` bytes of data and two skipped bytes, then the bytes dropped and the wire left; the
raw body is the chunks' data, and the parser has set `chunks_done`. -/
theorem recvResponse_frames (R : ResponseParser σ) (Z : Inflate) (buffSize : Nat) (s : σ)
    (w : Wire) (r : Received σ) (h : recvResponse R Z buffSize s w = some r) :
    ∃ raw, r.body = inflateBody Z (R.contentEncoding r.parser) raw ∧
      r.dropped.length < buffSize ∧
      ((R.chunked r.parser = false ∧ r.chunks = [] ∧
          w.flatten = r.parsed ++ raw ++ r.dropped ++ r.rest.flatten ∧
          raw.length = (R.getContentLength r.parser).toNat) ∨
        (R.chunksDone r.parser = true ∧
          w.flatten = r.parsed ++ (r.chunks.map Chunk.bytes).flatten ++ r.dropped ++
            r.rest.flatten ∧
          raw = (r.chunks.map Chunk.payload).flatten ∧
          ∀ c ∈ r.chunks, c.payload.length = R.contentLen c.parser ∧ c.skip.length = 2)) := by
  unfold recvResponse at h
  split at h
  · cases h
  · rename_i s' parsed data w₁ hh
    obtain ⟨e, hlt, -, -⟩ := parseLoop_spec R.toParser buffSize false s [] [] w hh
    have hlt := hlt (Nat.zero_le _)
    simp only [List.nil_append] at e
    split at h
    · split at h
      · cases h
      · rename_i hc _ s'' cs body data' w₂ hr
        cases h
        obtain ⟨e', hb, hcs, -, hdone, hlt'⟩ := recvChunks_spec R buffSize s' [] data w₁ hr
        refine ⟨_, rfl, hlt' hlt.le, .inr ⟨hdone, ?_, by simpa using hb,
          fun c hc => ⟨(hcs c hc).2.1, (hcs c hc).2.2⟩⟩⟩
        rw [e, List.append_assoc parsed, e']; simp only [List.append_assoc]
    · split at h
      · cases h
      · rename_i hc _ body dropped w₂ hb
        cases h
        obtain ⟨e', hl, hd⟩ := recvBody_spec hb
        refine ⟨_, rfl, ?_, .inl ⟨Bool.eq_false_iff.2 hc, rfl, ?_, hl⟩⟩
        · show dropped.length < buffSize
          by_cases hn : dropped = []
          · simp only [hn, List.length_nil]; omega
          · have := hd hn; omega
        · rw [e, List.append_assoc parsed, e']; simp only [List.append_assoc]

/-- The response parser of the example: the header is two bytes; a chunk's size line is one
digit; the chunk of size `0` is the last. -/
def digitChunkParser : ResponseParser Nat where
  execute _ data := (0, if 2 ≤ data.length then 2 else data.length)
  execute_le _ data := by dsimp only; split <;> omega
  hasError _ := false
  isFinished _ := true
  getContentLength _ := 0
  executeChunk s data := match data with
    | [] => (s, 0)
    | c :: _ => (c.toNat - '0'.toNat, 1)
  executeChunk_le _ data := by cases data <;> simp
  chunked _ := true
  contentLen s := s
  chunksDone s := s == 0
  contentEncoding _ := "identity"

/-- A chunked response in one segment, a chunk `ab` and the last chunk: the body is `ab`. -/
theorem recvResponse_frames_chunked :
    recvResponse digitChunkParser ⟨id, id⟩ 16 0
        [['H', 'H', '2', 'a', 'b', '\r', '\n', '0', '\r', '\n']] =
        some ⟨0, ['a', 'b'], ['H', 'H'], [⟨2, ['2'], ['a', 'b'], ['\r', '\n']⟩,
          ⟨0, ['0'], [], ['\r', '\n']⟩], [], []⟩ ∧
      ∃ raw, ['a', 'b'] = inflateBody ⟨id, id⟩ "identity" raw ∧
        raw = [['a', 'b'], []].flatten := by
  have hc₁ : recvChunkSize digitChunkParser 16 0 ['2', 'a', 'b', '\r', '\n', '0', '\r', '\n'] [] =
      some (2, ['2'], ['a', 'b', '\r', '\n', '0', '\r', '\n'], []) := by
    rw [recvChunkSize, parseLoop_step (show fill 16 true ['2', 'a', 'b', '\r', '\n', '0', '\r',
      '\n'] [] = some (['2', 'a', 'b', '\r', '\n', '0', '\r', '\n'], []) from rfl)]
    rfl
  have hc₂ : recvChunkSize digitChunkParser 16 2 ['0', '\r', '\n'] [] =
      some (0, ['0'], ['\r', '\n'], []) := by
    rw [recvChunkSize, parseLoop_step (show fill 16 true ['0', '\r', '\n'] [] =
      some (['0', '\r', '\n'], []) from rfl)]
    rfl
  have hh : recvHeader digitChunkParser.toParser 16 0
      [['H', 'H', '2', 'a', 'b', '\r', '\n', '0', '\r', '\n']] =
        some (0, ['H', 'H'], ['2', 'a', 'b', '\r', '\n', '0', '\r', '\n'], []) := by
    rw [recvHeader, parseLoop_step (show fill 16 false [] [['H', 'H', '2', 'a', 'b', '\r', '\n',
      '0', '\r', '\n']] = some (['H', 'H', '2', 'a', 'b', '\r', '\n', '0', '\r', '\n'], [])
      from rfl)]
    rfl
  have h : recvResponse digitChunkParser ⟨id, id⟩ 16 0
      [['H', 'H', '2', 'a', 'b', '\r', '\n', '0', '\r', '\n']] =
        some ⟨0, ['a', 'b'], ['H', 'H'], [⟨2, ['2'], ['a', 'b'], ['\r', '\n']⟩,
          ⟨0, ['0'], [], ['\r', '\n']⟩], [], []⟩ := by
    rw [recvResponse, hh]
    dsimp only
    rw [if_pos (show digitChunkParser.chunked 0 = true from rfl), recvChunks_step hc₁
      (show chunkData 16 2 [] ['a', 'b', '\r', '\n', '0', '\r', '\n'] [] =
        some (['a', 'b'], ['0', '\r', '\n'], ['a', 'b'], ['\r', '\n'], []) from rfl),
      if_neg (show ¬digitChunkParser.chunksDone 2 = true by decide), recvChunks_step hc₂
      (show chunkData 16 0 ['a', 'b'] ['\r', '\n'] [] =
        some (['a', 'b'], [], [], ['\r', '\n'], []) from rfl)]
    rfl
  obtain ⟨raw, hraw, -, hcase⟩ := recvResponse_frames _ _ _ _ _ _ h
  refine ⟨h, raw, hraw, ?_⟩
  rcases hcase with ⟨hch, -⟩ | ⟨-, -, hr, -⟩
  · cases hch
  · exact hr

end Sylar.Http.Recv
