import Smartwheel.Effect.Check
import Smartwheel.Text.Utf8

/-! `JobManager.read_log`: a log is read on from the offset that the last read has returned, while it is written. -/
namespace Smartwheel.LogReading
open Effect
open Utf8 (encode strict lossy Cut)

abbrev Bytes := List UInt8

/-- One of the logs that `list_logs` finds. -/
structure Entry where
  id : String
  path : String
  available : Bool
  error : String

structure Job where
  status : String
  logs : List Entry

inductive Node where
  | regular (content : Bytes)
  | other

/-- The jobs and the files at one time; `ordinary` refuses links. -/
structure Host where
  job : String → Option Job
  ordinary : String → Except String Unit
  file : String → Option Node

structure Reply where
  text : List Char
  offset : ℤ
  status : String
  logId : String
  available : Bool
  error : String

def chunkSize : ℕ := 512 * 1024

/-- The loop: `stop` goes back from the end of the data, by three bytes at most, while the end is not decoded. -/
def backOff (data : Bytes) : ℕ → List Char × ℕ
  | 0 => ([], 0)
  | stop + 1 =>
    if (stop + 1 : ℤ) > data.length - 4 then
      match strict (data.take (stop + 1)) with
      | .ok text => (text, stop + 1)
      | .error .unexpectedEnd => backOff data stop
      | .error _ => (lossy data, data.length)
    else ([], stop + 1)

def readChunk (content : Bytes) (offset : ℕ) : List Char × ℕ :=
  let data := (content.drop offset).take chunkSize
  backOff data data.length

def need {α : Type} (o : Option α) (e : String) : Except String α :=
  match o with
  | some a => .ok a
  | none => .error e

def regular : Option Node → Except String Bytes
  | some (.regular content) => .ok content
  | some .other => .error "日志不是普通文件"
  | none => .error "[Errno 2] No such file or directory"

def select (host : Host) (identifier : String) (logId : Option String) : Except String (Job × Entry) := do
  let job ← need (host.job identifier) "未知任务"
  let entry ← need (job.logs.find? fun e => e.id == logId.getD "runtime") "未知或不属于本任务的日志选项"
  return (job, entry)

/-- `read_log`. -/
def readLog (host : Host) (identifier : String) (offset : ℤ) (logId : Option String) : Except String Reply := do
  let _ ← need (host.job identifier) "未知任务"
  refuse (offset < 0) "日志偏移必须为非负整数"
  let (job, entry) ← select host identifier logId
  if entry.available then do
    host.ordinary entry.path
    let content ← regular (host.file entry.path)
    let read := readChunk content offset.toNat
    return ⟨read.1, offset + read.2, job.status, entry.id, true, ""⟩
  else return ⟨[], offset, job.status, entry.id, false, entry.error⟩

/-- Reads, each from the offset that the one before has returned; `hosts` are what they find. -/
def readOn (identifier : String) (logId : Option String) : ℤ → List Host → Except String (List Reply)
  | _, [] => .ok []
  | offset, host :: rest => do
    let reply ← readLog host identifier offset logId
    let replies ← readOn identifier logId reply.offset rest
    return reply :: replies

def startOf (replies : List Reply) : ℕ → ℤ
  | 0 => 0
  | k + 1 => (replies[k]?.map Reply.offset).getD 0

/-! ### One chunk -/

section chunk
variable {content part : Bytes} {done whole : List Char}

theorem backOff_cut (whole : List Char) (part : Bytes) (kind : part = [] ∨ Cut part) (k : ℕ) (inside : k ≤ part.length) :
    backOff (encode whole ++ part) ((encode whole).length + k) = (whole, (encode whole).length) := by
  have short : part.length ≤ 3 := by
    rcases kind with rfl | cut
    · simp
    · exact cut.length
  induction k with
  | zero =>
    rw [Nat.add_zero]
    cases size : (encode whole).length with
    | zero =>
      have none : whole = [] := by
        cases whole with
        | nil => rfl
        | cons c rest =>
          obtain ⟨a, more, shape, -⟩ := Utf8.encodeChar_cons c
          rw [Utf8.encode_cons, shape] at size
          cases size
      rw [none]
      rfl
    | succ n =>
      have first : (encode whole ++ part).take (n + 1) = encode whole := by
        rw [← size]
        exact List.take_left
      unfold backOff
      rw [if_pos (by rw [List.length_append, size]; omega), first, Utf8.strict_encode]
  | succ k ih =>
    have cut : Cut (part.take (k + 1)) := by
      rcases kind with rfl | cut
      · cases inside
      · refine cut.shorter (List.take_prefix ..) ?_
        intro none
        have size := congrArg List.length none
        rw [List.length_take, List.length_nil] at size
        omega
    have first : (encode whole ++ part).take ((encode whole).length + k + 1) = encode whole ++ part.take (k + 1) := by
      rw [Nat.add_assoc]
      exact List.take_length_add_append _
    rw [← Nat.add_assoc]
    unfold backOff
    rw [if_pos (by rw [List.length_append]; omega), first, Utf8.strict_encode_cut whole cut]
    exact ih (by omega)

theorem readChunk_spec {text : List Char} (begins : content <+: encode text) (start : encode done <+: content) :
    ∃ whole, readChunk content (encode done).length = (whole, (encode whole).length) ∧ encode (done ++ whole) <+: content ∧
      ∀ c, String.utf8EncodeChar c <+: content.drop (encode done).length → whole ≠ [] := by
  obtain ⟨rest, rfl⟩ := start
  obtain ⟨last, rfl⟩ := (Utf8.encode_prefix_iff done text).mp ((List.prefix_append ..).trans begins)
  rw [Utf8.encode_append, List.prefix_append_right_inj] at begins
  obtain ⟨whole, part, shape, kind⟩ := Utf8.prefix_encode ((List.take_prefix chunkSize rest).trans begins)
  refine ⟨whole, ?_, ?_, fun c complete none => ?_⟩
  · unfold readChunk
    rw [List.drop_left, shape]
    dsimp only
    rw [List.length_append]
    exact backOff_cut whole part kind part.length (Nat.le_refl _)
  · rw [Utf8.encode_append, List.prefix_append_right_inj]
    exact (shape ▸ List.prefix_append ..).trans (List.take_prefix chunkSize rest)
  · subst none
    rw [List.drop_left] at complete
    -- the character is in the chunk, which is a part of one
    have size : (String.utf8EncodeChar c).length ≤ 4 := by
      obtain ⟨a, more, same, -, few⟩ := Utf8.encodeChar_cons c
      rw [same, List.length_cons]
      omega
    have chunk : String.utf8EncodeChar c <+: part := by
      have inside : String.utf8EncodeChar c <+: rest.take chunkSize := by
        rw [List.prefix_take_iff]
        exact ⟨complete, le_trans size (by decide)⟩
      rwa [shape] at inside
    rcases kind with rfl | ⟨-, d, begins, short⟩
    · obtain ⟨a, more, same, -⟩ := Utf8.encodeChar_cons c
      rw [same] at chunk
      cases List.prefix_nil.mp chunk
    · have both : encode [c] <+: encode [d] := by
        unfold encode
        rw [List.flatMap_singleton, List.flatMap_singleton]
        exact chunk.trans begins
      have same := List.cons_prefix_cons.mp ((Utf8.encode_prefix_iff [c] [d]).mp both)
      rw [same.1] at chunk
      exact short (begins.eq_of_length_le chunk.length_le)

end chunk

/-! ### All reads -/

def Host.content (host : Host) (identifier : String) (logId : Option String) (content : Bytes) : Prop :=
  ∃ job entry, select host identifier logId = .ok (job, entry) ∧ entry.available = true ∧ host.file entry.path = some (.regular content)

section reads
variable {identifier : String} {logId : Option String} {host : Host} {offset : ℤ} {reply : Reply} {content : Bytes}

theorem readLog_cases (h : readLog host identifier offset logId = .ok reply) : (∃ content, host.content identifier logId content ∧
      reply.text = (readChunk content offset.toNat).1 ∧ reply.offset = offset + (readChunk content offset.toNat).2) ∨
    ((∀ content, ¬host.content identifier logId content) ∧ reply.text = [] ∧ reply.offset = offset) := by
  unfold readLog at h
  simp only [bind_eq_ok_iff] at h
  obtain ⟨_, -, _, -, ⟨job, entry⟩, selected, h⟩ := h
  dsimp only at h
  split at h
  · next available =>
    obtain ⟨_, -, h⟩ := bind_eq_ok h
    obtain ⟨content, file, h⟩ := bind_eq_ok h
    cases h
    refine .inl ⟨content, ⟨job, entry, selected, available, ?_⟩, rfl, rfl⟩
    unfold regular at file
    split at file
    · next known => rw [known, Except.ok.inj file]
    · cases file
    · cases file
  · next unavailable =>
    cases h
    refine .inr ⟨?_, rfl, rfl⟩
    rintro content ⟨job', entry', selected', available, -⟩
    cases selected.symm.trans selected'
    exact unavailable available

theorem content_unique {other : Bytes} (h : host.content identifier logId content) (h' : host.content identifier logId other) :
    content = other := by
  obtain ⟨job, entry, selected, -, file⟩ := h
  obtain ⟨job', entry', selected', -, file'⟩ := h'
  cases selected.symm.trans selected'
  cases file.symm.trans file'
  rfl

structure Written (identifier : String) (logId : Option String) (hosts : List Host) : Prop where
  grows : hosts.Pairwise fun earlier later => ∀ a b, earlier.content identifier logId a → later.content identifier logId b → a <+: b
  text : ∀ host ∈ hosts, ∀ content, host.content identifier logId content → ∃ text, content <+: encode text

theorem readOn_spec {hosts : List Host} {replies : List Reply} (done : List Char) (written : Written identifier logId hosts)
    (start : ∀ host ∈ hosts, ∀ content, host.content identifier logId content → encode done <+: content)
    (h : readOn identifier logId (encode done).length hosts = .ok replies) (k : ℕ) (reply : Reply) (host : Host)
    (here : replies[k]? = some reply) (found : hosts[k]? = some host) :
    reply.offset = (encode (done ++ (replies.take (k + 1)).flatMap Reply.text)).length ∧
      ∀ content, host.content identifier logId content →
        encode (done ++ (replies.take (k + 1)).flatMap Reply.text) <+: content ∧
        ∀ c, String.utf8EncodeChar c <+: content.drop (encode (done ++ (replies.take k).flatMap Reply.text)).length → reply.text ≠ [] := by
  induction hosts generalizing done replies k with
  | nil => cases found
  | cons first rest ih =>
    obtain ⟨reply₀, read, h⟩ := bind_eq_ok h
    obtain ⟨others, later, h⟩ := bind_eq_ok h
    cases h
    -- what the first read makes of the log
    have one : ∃ whole, reply₀.text = whole ∧ reply₀.offset = (encode (done ++ whole)).length ∧
        (∀ content, first.content identifier logId content → encode (done ++ whole) <+: content ∧
          ∀ c, String.utf8EncodeChar c <+: content.drop (encode done).length → whole ≠ []) ∧
        ∀ host ∈ rest, ∀ content, host.content identifier logId content → encode (done ++ whole) <+: content := by
      rcases readLog_cases read with ⟨content, there, text, offset⟩ | ⟨absent, text, offset⟩
      · obtain ⟨whole_, begins⟩ := written.text first List.mem_cons_self content there
        obtain ⟨whole, chunk, inside, some_⟩ := readChunk_spec begins (start first List.mem_cons_self content there)
        rw [Int.toNat_natCast, chunk] at text offset
        refine ⟨whole, text, ?_, fun other there' => ?_, fun host inside' other there' => ?_⟩
        · rw [offset, Utf8.encode_append, List.length_append]
          push_cast
          rfl
        · rw [← content_unique there there']
          exact ⟨inside, some_⟩
        · exact inside.trans ((List.pairwise_cons.mp written.grows).1 host inside' _ _ there there')
      · refine ⟨[], text, ?_, fun other there' => absurd there' (absent other), fun host inside' => ?_⟩
        · rw [offset, List.append_nil]
        · rw [List.append_nil]
          exact start host (List.mem_cons_of_mem _ inside')
    obtain ⟨whole, text, offset, inside, starts⟩ := one
    cases k with
    | zero =>
      cases here
      cases found
      rw [List.take_succ_cons, List.take_zero, List.take_zero, List.flatMap_cons, List.flatMap_nil, List.append_nil, List.append_nil, text]
      exact ⟨offset, inside⟩
    | succ k =>
      rw [List.getElem?_cons_succ] at here found
      rw [offset] at later
      have tail : Written identifier logId rest :=
        ⟨(List.pairwise_cons.mp written.grows).2, fun host inside => written.text host (List.mem_cons_of_mem _ inside)⟩
      have known := ih (done ++ whole) tail starts later k here found
      rw [List.take_succ_cons, List.take_succ_cons, List.flatMap_cons, List.flatMap_cons, text, ← List.append_assoc, ← List.append_assoc]
      exact known

/-- What the reads return, one after the other, is the text of the log up to the offset of the last one; a read returns some of it
where a character is complete. -/
theorem readLog_incremental {hosts : List Host} {replies : List Reply} (written : Written identifier logId hosts)
    (h : readOn identifier logId 0 hosts = .ok replies) (k : ℕ) (reply : Reply) (host : Host) (content : Bytes)
    (here : replies[k]? = some reply) (found : hosts[k]? = some host) (there : host.content identifier logId content) :
    strict (content.take reply.offset.toNat) = .ok ((replies.take (k + 1)).flatMap Reply.text) ∧ reply.offset ≤ content.length ∧
      ∀ c, String.utf8EncodeChar c <+: content.drop (startOf replies k).toNat → reply.text ≠ [] := by
  have spec := readOn_spec [] written (fun _ _ _ _ => List.nil_prefix) h
  obtain ⟨offset, all⟩ := spec k reply host here found
  obtain ⟨begins, some_⟩ := all content there
  rw [List.nil_append] at offset begins some_
  have start : (startOf replies k).toNat = (encode ((replies.take k).flatMap Reply.text)).length := by
    cases k with
    | zero => rfl
    | succ k =>
      have before : ∃ r g, replies[k]? = some r ∧ hosts[k]? = some g := by
        have inside := (List.getElem?_eq_some_iff.mp here).1
        have inside' := (List.getElem?_eq_some_iff.mp found).1
        exact ⟨_, _, List.getElem?_eq_getElem (by omega), List.getElem?_eq_getElem (by omega)⟩
      obtain ⟨r, g, here', found'⟩ := before
      have offset' := (spec k r g here' found').1
      rw [startOf, here', Option.map_some, Option.getD_some, offset', Int.toNat_natCast, List.nil_append]
  refine ⟨?_, ?_, ?_⟩
  · rw [offset, Int.toNat_natCast, ← List.prefix_iff_eq_take.mp begins]
    exact Utf8.strict_encode _
  · rw [offset]
    exact_mod_cast begins.length_le
  · rw [start]
    exact some_

end reads

/-! A log that is read while a character is written. -/
namespace Bench

def host (content : Bytes) : Host where
  job id := if id = "job" then some ⟨"RUNNING", [⟨"runtime", "/log", true, ""⟩]⟩ else none
  ordinary _ := .ok ()
  file _ := some (.regular content)

def hosts : List Host := [host [0xE4, 0xBD], host [0xE4, 0xBD, 0xA0, 0x61]]

theorem content_host {bytes content : Bytes} (h : (host bytes).content "job" none content) : content = bytes := by
  obtain ⟨job, entry, -, -, file⟩ := h
  cases file
  rfl

theorem hosts_written : Written "job" none hosts := by
  have text : ∀ host ∈ hosts, ∀ content, host.content "job" none content → content <+: encode ['你', 'a'] := by
    intro host inside content there
    simp only [hosts, List.mem_cons, List.not_mem_nil, or_false] at inside
    rcases inside with rfl | rfl
    · rw [content_host there]
      decide +kernel
    · rw [content_host there]
      decide +kernel
  refine ⟨List.pairwise_pair.mpr fun a b first second => ?_, fun host inside content there => ⟨_, text host inside content there⟩⟩
  rw [content_host first, content_host second]
  decide

theorem readLog_cut : ∃ replies reply, readOn "job" none 0 hosts = .ok replies ∧ replies[1]? = some reply ∧
    strict (([0xE4, 0xBD, 0xA0, 0x61] : Bytes).take reply.offset.toNat) = .ok ((replies.take 2).flatMap Reply.text) := by
  have run : readOn "job" none 0 hosts = .ok [⟨[], 0, "RUNNING", "runtime", true, ""⟩, ⟨['你', 'a'], 4, "RUNNING", "runtime", true, ""⟩] := by
    rfl
  exact ⟨_, _, run, rfl, (readLog_incremental hosts_written run 1 _ _ [0xE4, 0xBD, 0xA0, 0x61] rfl rfl
    ⟨_, _, rfl, rfl, rfl⟩).1⟩

end Bench

end Smartwheel.LogReading
