/-
A response is never longer than its head says.

`serve_file` announces the size it reads when it opens the file, and the chunks are read later,
one for each completed send, while other clients are served and the file may change. The context
counts down what is left of the announced size, and a chunk never takes more. So in every run of
the NT server the chunks behind a head that announces a length stay within it
(`body_within_length`), also when the file has grown in between, or each read finds another file
altogether. Where a file shrinks the body ends early: that the head promises at least is all there
is to say.
-/
import W32HttpServer.Common
import W32HttpServer.HttpRequest
import W32HttpServer.HttpResponse
import W32HttpServer.ResponseFraming
import W32HttpServer.ContentType
import W32HttpServer.Platform
import W32HttpServer.Context
import W32HttpServer.DirStream
import W32HttpServer.Serve
import W32HttpServer.FileBody
import W32HttpServer.Disk
import W32HttpServer.MagicNumbers
import W32HttpServer.ListingPage
import W32HttpServer.NtServer
import W32HttpServer.Conversation
import W32HttpServer.Lib.Transition
import W32HttpServer.Lib.Ownership

set_option autoImplicit false

namespace W32HttpServer.AnnouncedLength

open W32HttpServer.Common W32HttpServer.HttpRequest W32HttpServer.HttpResponse
open W32HttpServer.ResponseFraming W32HttpServer.Platform W32HttpServer.DirStream
open W32HttpServer.Context (stream_state_t initial_stream stream_close_kind)
open W32HttpServer.Serve W32HttpServer.FileBody W32HttpServer.Disk W32HttpServer.MagicNumbers
open W32HttpServer.ListingPage W32HttpServer.NtServer
open W32HttpServer.Conversation
open W32HttpServer.Lib.Transition W32HttpServer.Lib.Ownership

variable {σ : Type} {fs : FileSystem σ} {document_root : List u8} {req : http_request_t}

/-- What was sent behind a head, and what the stream may still yield, is within what the head
announces. -/
structure Within (head : List u8) (chunks : List (List u8)) (stream : stream_state_t) : Prop where
  nothing : stream.stream_kind = .STREAM_NONE → chunks = []
  listing : stream.stream_kind = .STREAM_DIR → content_length head = none
  file : stream.stream_kind = .STREAM_FILE → ∀ n, content_length head = some n →
    chunks.flatten.length + stream.stream_remaining.toNat ≤ n

theorem Within.chunks_le {head : List u8} {chunks : List (List u8)} {stream : stream_state_t}
    (h : Within head chunks stream) {n : ℕ} (hn : content_length head = some n) :
    chunks.flatten.length ≤ n := by
  cases hkind : stream.stream_kind with
  | STREAM_NONE =>
      rw [h.nothing hkind]
      exact Nat.zero_le n
  | STREAM_FILE =>
      have hfile := h.file hkind n hn
      omega
  | STREAM_DIR =>
      rw [h.listing hkind] at hn
      exact absurd hn nofun

/-- A response without a stream. -/
theorem within_of_none (head : List u8) {stream : stream_state_t}
    (hkind : stream.stream_kind = .STREAM_NONE) : Within head [] stream where
  nothing _ := rfl
  listing h := absurd (hkind.symm.trans h) (by decide)
  file h := absurd (hkind.symm.trans h) (by decide)

/-- The head of a file announces what the context counts down from. -/
theorem within_of_file {path : List u8} {ctx : stream_state_t} {s : σ} {r : serve_result σ}
    (hnone : ctx.stream_kind = .STREAM_NONE) (h : FileServed fs path ctx s r) :
    Within r.out [] r.ctx := by
  cases h with
  | error => exact within_of_none _ hnone
  | @opened out h s1 s2 s3 file_size peek hopen hsize hvalid hpeek hout =>
      refine ⟨fun _ => rfl, nofun, fun _ n hn => ?_⟩
      rw [build_http_file_header_whole, Option.some.injEq] at hout
      have hmime := (mime_type_text _ (detect_mime_type_mem path (peek.getD []))).1.2.1
      have hannounced : content_length out = some file_size.toNat := by
        rw [← hout]
        exact content_length_response (by decide) hmime _ _
      have hsame : file_size.toNat = n := Option.some.inj (hannounced.symm.trans hn)
      show [].flatten.length + file_size.toNat ≤ n
      simp [hsame]

/-- Every head that `serve_http_request` writes. -/
theorem within_of_served {ctx : stream_state_t} {s : σ} {r : serve_result σ}
    (h : Served document_root fs ctx req s r) : Within r.out [] r.ctx := by
  cases h with
  | error => exact within_of_none _ rfl
  | redirect => exact within_of_none _ rfl
  | @listing out ctx' s' h hopen hout =>
      have hkind : ctx'.stream_kind = .STREAM_DIR := (congrArg (·.1.stream_kind) hopen).symm
      rw [build_http_listing_header_eq, Option.some.injEq] at hout
      -- the head of a listing has no length
      refine ⟨fun _ => rfl, fun _ => ?_, fun hfile => ?_⟩
      · show content_length out = none
        rw [← hout]
        decide
      · exact absurd (hkind.symm.trans hfile) (by decide)
  | file h hr => exact within_of_file rfl hr

/-- A chunk of a file is taken from what is left of the announced size. -/
theorem stream_next_chunk_remaining {stream : stream_state_t} (s : σ)
    (hkind : stream.stream_kind = .STREAM_FILE) :
    (stream_next_chunk fs HTTP_SEND_BUFFER_SIZE stream s).1.length
        + (stream_next_chunk fs HTTP_SEND_BUFFER_SIZE stream s).2.1.stream_remaining.toNat
      = stream.stream_remaining.toNat := by
  rw [stream_next_chunk, if_neg (by decide), hkind]
  dsimp only
  split_ifs with hend
  · exact Nat.zero_add _
  · split
    · exact Nat.zero_add _
    · next got s1 hread =>
        have hgot : got.length ≤ min HTTP_SEND_BUFFER_SIZE stream.stream_remaining.toNat :=
          fs.read_le (s := s) (h := stream.stream_file) (by rw [hread])
        split_ifs
        · exact Nat.zero_add _
        · have hlt := stream.stream_remaining.toNat_lt
          have hof : (UInt32.ofNat got.length).toNat = got.length :=
            UInt32.toNat_ofNat_of_lt' (lt_of_le_of_lt hgot ((min_le_right _ _).trans_lt hlt))
          have hle : UInt32.ofNat got.length ≤ stream.stream_remaining := by
            rw [UInt32.le_iff_toNat_le, hof]
            omega
          dsimp only
          rw [UInt32.toNat_sub_of_le _ _ hle, hof]
          omega

/-- One more chunk. -/
theorem Within.chunk {head : List u8} {chunks : List (List u8)} {stream : stream_state_t}
    (h : Within head chunks stream) (hopen : stream.stream_kind ≠ .STREAM_NONE) (s : σ) :
    Within head (chunks ++ [(stream_next_chunk fs HTTP_SEND_BUFFER_SIZE stream s).1])
      (stream_next_chunk fs HTTP_SEND_BUFFER_SIZE stream s).2.1 := by
  obtain ⟨chunk, stream', s', heq, hsame, -, -⟩ :=
    stream_next_chunk_progress fs HTTP_SEND_BUFFER_SIZE (by decide) (by decide) stream s
  have hkind := hsame.stream_kind
  refine ⟨fun hnone => ?_, fun hdir => ?_, fun hfile n hn => ?_⟩
  · rw [heq] at hnone
    exact absurd (hkind.symm.trans hnone) hopen
  · rw [heq] at hdir
    exact h.listing (hkind.symm.trans hdir)
  · have hwas : stream.stream_kind = .STREAM_FILE := by
      rw [heq] at hfile
      exact hkind.symm.trans hfile
    have hleft := @stream_next_chunk_remaining σ fs stream s hwas
    have hbefore := h.file hwas n hn
    rw [List.flatten_append, List.length_append, List.flatten_singleton]
    omega

/-- What was sent is a head and what stays within it. -/
theorem sends_within {sent : List (List u8)} {stream : stream_state_t}
    (h : Sends fs document_root req sent stream) :
    ∃ head chunks, sent = head :: chunks ∧ Within head chunks stream := by
  induction h with
  | head s h =>
      exact ⟨_, [], rfl, within_of_served (serve_http_request_served document_root fs _ req s)⟩
  | error s s' h => exact ⟨_, [], rfl, within_of_none _ (stream_close_kind fs _ s')⟩
  | chunk s h hopen ih =>
      obtain ⟨head, chunks, rfl, hwithin⟩ := ih
      exact ⟨head, _, List.cons_append, hwithin.chunk hopen s⟩

/-! ## Every run -/

/-- What was sent stays within the length that its first buffer announces. -/
def Honest (g : talk_t) : Prop :=
  ∀ head chunks n, g.sent.map Prod.snd = head :: chunks → content_length head = some n →
    chunks.flatten.length ≤ n

theorem honest_of_answered (g : talk_t) (h : Answered fs document_root g) : Honest g := by
  intro head chunks n hsent hn
  rcases h with hnone | ⟨sock, stream, received, req, sent, -, -, hmap, hsends⟩
  · rw [hnone] at hsent
    exact absurd hsent nofun
  · obtain ⟨head', chunks', rfl, hwithin⟩ := sends_within hsends
    rw [hmap, List.map_map] at hsent
    simp only [Function.comp_def, List.map_id', List.cons.injEq] at hsent
    obtain ⟨rfl, rfl⟩ := hsent
    exact hwithin.chunks_le hn

variable (fs) (null_page : Option SOCKADDR_IN) (document_root) {worker_threads : ℕ}

/-- **No response is longer than its head says**, in every run and for every context. What is still
owed of the announced length is in the context, and every chunk is at most that and is taken off
it, whatever the file has become. -/
theorem body_within_length (as : List (NtAction σ worker_threads)) (s : Server σ worker_threads)
    (hs : exec (server_step fs null_page document_root) (initial fs null_page worker_threads) as
      = some s) (ctx : ℕ) : Honest (talk_of fs null_page document_root as ctx) :=
  holds_of_talk fs null_page document_root honest_of_answered as s hs ctx

/-! ## A file that grows -/

/-- The open file is longer by now. -/
def grown : ∀ q : Call handles_t, q.Answer
  | .disk => ([.file (ascii "hello world") 0] : handles_t)
  | q => succeed q

/-- A chunk is sent. -/
def next_chunk_sent : List (Choice (nt handles_t)) :=
  plain 1 ++ asked ++ plain 2 ++ [.answered grown] ++ plain 2 ++ asked ++ plain 4 ++ [.posted true]

/-- The head of `a` has been sent, and then the file has grown. -/
def grown_file : List (NtAction handles_t 2) :=
  two_clients ++ .deliver worker_0 ⟨.OP_SEND, 1, .of 2⟩ ⟨[], 0, 0⟩
    :: next_chunk_sent.map (.run worker_0)

theorem body_within_length_grown :
    ∃ s, exec (server_step (disk one_page) (some 0) (ascii "r"))
        (initial (disk one_page) (some 0) 2) grown_file = some s
      ∧ (talk_of (disk one_page) (some 0) (ascii "r") grown_file 1).sent.head?.bind
          (fun b => content_length b.2) = some 5
      ∧ (talk_of (disk one_page) (some 0) (ascii "r") grown_file 1).sent.tail
        = [(.of 2, ascii "hello")]
      ∧ ∀ ctx, Honest (talk_of (disk one_page) (some 0) (ascii "r") grown_file ctx) := by
  have hsome : (exec (server_step (disk one_page) (some 0) (ascii "r"))
      (initial (disk one_page) (some 0) 2) grown_file).isSome := by
    decide +kernel
  obtain ⟨s, hs⟩ := Option.isSome_iff_exists.mp hsome
  exact ⟨s, hs, by decide +kernel, by decide +kernel,
    body_within_length (disk one_page) (ascii "r") (some 0) grown_file s hs⟩

end W32HttpServer.AnnouncedLength
