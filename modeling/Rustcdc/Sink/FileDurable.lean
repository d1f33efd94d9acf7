import Rustcdc.Sink.FileJsonl

/-! What the file sink has on disk when a flush succeeds.  The batch is taken before it is written, so
a line that fails drops the rest of it; while no write or rotation fails, and no failed flush drops
bytes, every line is in the files in the order it was sent. -/
namespace Rustcdc
open List Machine Framing

/-- A failed write keeps the bytes it has not written. -/
def WriteAnswer.Keeps (a : WriteAnswer) : Prop := ∀ e, a.result = .error e → a.lost = 0

/-- Every step of a rotation succeeds. -/
structure RotateAnswer.Succeeds (a : RotateAnswer) : Prop where
  flush : a.flush.result = .ok ()
  sync : a.sync = .ok ()
  rename : a.rename = .ok ()
  openFile : a.openFile = .ok ()

/-- No line of a batch fails, and a failed flush of the writer drops nothing. -/
structure FlushAnswers.Spares (a : FlushAnswers) : Prop where
  rotate : ∀ i, (a.lines i).rotate.Succeeds
  write : ∀ i, (a.lines i).write.result = .ok ()
  flush : a.flush.Keeps

namespace FileJsonlSink
section
/-- The lines are in the archives, the active file and the writer's buffer, in this order, and the
writer is on the file at the configured path. -/
structure OnDisk (lines : List Bytes) (s : FileJsonlSink) : Prop where
  handle : s.writer.file = .active
  numbered : ∀ file ∈ s.disk.archives, file.1.rotationCount ≤ s.rotationCount
  stored : ∃ (chunks : List (List Bytes)) (last : List Bytes) (content : Bytes), lines = chunks.flatten++last ∧
    s.disk.archives.map (·.2) = chunks.map (terminated newline) ∧
    s.disk.active = some content ∧ content++s.writer.buffer = terminated newline last

variable {s : FileJsonlSink} {l : List Bytes}

lemma OnDisk.moved (h : OnDisk l s) {fr r : Bytes} (hb : s.writer.buffer = fr++r)
    {s' : FileJsonlSink} (hw : s'.writer = ⟨.active,r⟩)
    (hd : s'.disk = s.disk.append fr .active) (hco : s'.rotationCount = s.rotationCount) :
    OnDisk l s' := by
  obtain ⟨chunks,la,ct,hl,ha,hac,hc⟩ := h.stored
  refine ⟨by rw [hw],?_,chunks,la,ct++fr,hl,?_,?_,?_⟩
  · rw [hd,hco]
    exact h.numbered
  · rw [hd]
    exact ha
  · rw [hd,SinkDisk.append,hac]
    rfl
  · rw [hw,append_assoc,← hb]
    exact hc

variable {a : WriteAnswer}

lemma OnDisk.flushed (h : OnDisk l s) (ha : a.Keeps) : OnDisk l (s.flushed a) := by
  cases hr : a.result with
  | ok =>
    have hal : s.writer.buffer = s.writer.buffer++[] := (append_nil _).symm
    refine h.moved hal ?_ ?_ ?_ <;>
      simp [FileJsonlSink.flushed,BufWriter.flush,hr,h.handle]
  | error e =>
    refine h.moved (take_append_drop a.written s.writer.buffer).symm ?_ ?_ ?_ <;>
      simp [FileJsonlSink.flushed,BufWriter.flush,BufWriter.put,hr,h.handle,ha e hr]

lemma flushed_buffer (h : a.result = .ok ()) : (s.flushed a).writer.buffer = [] := by
  simp [flushed,BufWriter.flush,h]
section
variable (h : OnDisk l s)
include h

lemma OnDisk.written (ha : a.result = .ok ()) (li : Bytes) :
    (s.written (li++[newline]) a).2 = .ok () ∧ OnDisk (l++[li]) (s.written (li++[newline]) a).1 := by
  obtain ⟨chunks,la,ct,hl,har,hac,hc⟩ := h.stored
  simp only [FileJsonlSink.written,BufWriter.writeAll,BufWriter.put,ha]
  refine ⟨trivial,h.handle,?_,chunks,la++[li],ct++(s.writer.buffer++(li++[newline])).take a.written,?_,?_,?_,?_⟩
  · rw [h.handle]
    exact h.numbered
  · rw [hl,append_assoc]
  · rw [h.handle]
    exact har
  · rw [h.handle,SinkDisk.append,hac]
    rfl
  · rw [append_assoc,take_append_drop,← append_assoc,hc]
    simp

lemma rotate_ok {a : RotateAnswer} (ha : a.Succeeds) : (s.rotate a).2 = .ok () ∧ OnDisk l (s.rotate a).1 := by
  have hf := h.flushed (a := a.flush) fun e he => by
    rw [ha.flush] at he
    cases he
  have hb : (s.flushed a.flush).writer.buffer = [] := flushed_buffer ha.flush
  obtain ⟨chunks,la,ct,hl,har,hac,hc⟩ := hf.stored
  simp only [rotate,ha.flush,ha.sync,hac,ha.rename,ha.openFile]
  refine ⟨trivial,rfl,?_,chunks++[la],[],[],?_,?_,rfl,rfl⟩
  · intro file hfi
    rcases mem_append.mp hfi with ho | hn
    · have hle := hf.numbered file (mem_of_mem_filter ho)
      exact Nat.le_trans hle (Nat.le_succ _)
    · rw [mem_singleton.mp hn]
      exact Nat.le_refl _
  · rw [hl]
    simp
  · -- the name of the new archive has a number that no earlier one has
    have hk : ((s.flushed a.flush).disk.archives.filter (·.1 ≠ ⟨a.timestampMs,(s.flushed a.flush).rotationCount+1⟩)) =
        (s.flushed a.flush).disk.archives := by
      rw [filter_eq_self]
      intro file hfi
      have hle := hf.numbered file hfi
      have hne : file.1 ≠ ⟨a.timestampMs,(s.flushed a.flush).rotationCount+1⟩ := by
        intro heq
        rw [heq] at hle
        exact absurd hle (by simp)
      simpa using hne
    show ((s.flushed a.flush).disk.rename _ ct).archives.map (·.2) = _
    rw [SinkDisk.rename]
    simp only [hk]
    rw [hb,append_nil] at hc
    simp [har,hc]

lemma OnDisk.writeLine {a : LineAnswer} (hro : a.rotate.Succeeds) (hw : a.write.result = .ok ()) (li : Bytes) :
    (s.writeLine (li++[newline]) a).2 = .ok () ∧ OnDisk (l++[li]) (s.writeLine (li++[newline]) a).1 := by
  rw [FileJsonlSink.writeLine]
  split
  · obtain ⟨hre,hr⟩ := rotate_ok h hro
    generalize s.rotate a.rotate = rotated at hre hr
    obtain ⟨s',r⟩ := rotated
    obtain rfl : r = .ok () := hre
    exact hr.written hw li
  · exact h.written hw li

lemma OnDisk.writeBatch {a : ℕ → LineAnswer}
    (hro : ∀ i, (a i).rotate.Succeeds) (hw : ∀ i, (a i).write.result = .ok ()) (ind : ℕ)
    (b : List Bytes) :
    (s.writeBatch a ind (b.map (·++[newline]))).2 = .ok () ∧
      OnDisk (l++b) (s.writeBatch a ind (b.map (·++[newline]))).1 := by
  induction b generalizing s l ind with
  | nil =>
    rw [append_nil]
    exact ⟨rfl,h⟩
  | cons li b ih =>
    obtain ⟨hr,hl⟩ := h.writeLine (hro ind) (hw ind) li
    rw [map_cons,FileJsonlSink.writeBatch]
    generalize s.writeLine (li++[newline]) (a ind) = written at hr hl
    obtain ⟨s',r⟩ := written
    obtain rfl : r = .ok () := hr
    have hre := ih hl (ind+1)
    simpa using hre
end
end
section
variable (s : FileJsonlSink)

/-- What the batch and the closed flag are, which the writes leave alone. -/
def queue (s : FileJsonlSink) : List Bytes × ℕ × Bool := (s.pendingLines,s.pendingBytes,s.closed)
lemma written_queue (li : Bytes) (a : WriteAnswer) : (s.written li a).1.queue = s.queue := by
  rw [written]
  cases a.result <;> rfl

lemma rotate_queue (a : RotateAnswer) : (s.rotate a).1.queue = s.queue := by
  rw [rotate]
  split
  · rfl
  · rfl
  · split
    · rfl
    · rfl
    · split <;> rfl

lemma writeLine_queue (li : Bytes) (a : LineAnswer) : (s.writeLine li a).1.queue = s.queue := by
  rw [writeLine]
  split
  · have hr := s.rotate_queue a.rotate
    split
    · rename_i s' e hro
      rw [hro] at hr
      exact hr
    · rename_i s' hro
      rw [hro] at hr
      exact (s'.written_queue li a.write).trans hr
  · exact s.written_queue li a.write

lemma writeBatch_queue (a : ℕ → LineAnswer) (i : ℕ) (b : List Bytes) : (s.writeBatch a i b).1.queue = s.queue := by
  induction b generalizing s i with
  | nil => rfl
  | cons li b ih =>
    have hl := s.writeLine_queue li (a i)
    rw [writeBatch]
    split
    · rename_i s' e hw
      rw [hw] at hl
      exact hl
    · rename_i s' hw
      rw [hw] at hl
      exact (ih s' (i+1)).trans hl

lemma flushWriter_queue (a : FlushAnswers) : (s.flushWriter a).1.queue = s.queue := by
  rw [flushWriter]
  split
  · rfl
  · dsimp only
    split <;> rfl
end
section
variable {s : FileJsonlSink} {l : List Bytes} {s' : FileJsonlSink} {a : FlushAnswers}

lemma OnDisk.congr (h : OnDisk l s) (hw : s'.writer = s.writer)
    (hd : s'.disk = s.disk) (hc : s'.rotationCount = s.rotationCount) : OnDisk l s' := by
  refine ⟨by rw [hw]; exact h.handle,?_,?_⟩
  · rw [hd,hc]
    exact h.numbered
  · rw [hd,hw]
    exact h.stored

lemma OnDisk.flushWriter (h : OnDisk l s) (ha : a.flush.Keeps) : OnDisk l (s.flushWriter a).1 ∧
      ((s.flushWriter a).2 = .ok () → (s.flushWriter a).1.writer.buffer = []) := by
  have hf := h.flushed ha
  rw [FileJsonlSink.flushWriter]
  cases hr : a.flush.result with
  | error => exact ⟨hf,fun ho => by cases ho⟩
  | ok =>
    have hb : (s.flushed a.flush).writer.buffer = [] := flushed_buffer hr
    dsimp only
    split
    · exact ⟨hf.congr rfl rfl rfl,fun _ => hb⟩
    · exact ⟨hf.congr rfl rfl rfl,fun _ => hb⟩

lemma queue_eq {s : FileJsonlSink} (h : s'.queue = s.queue) :
    s'.pendingLines = s.pendingLines ∧ s'.closed = s.closed :=
  ⟨congrArg (·.1) h,congrArg (·.2.2) h⟩

/-- The batch is handed to the writer, whether or not the flush behind it succeeds. -/
theorem flushPending_onDisk (h : OnDisk l s) (ha : a.Spares) {p : List Bytes}
    (hp : s.pendingLines = p.map (·++[newline])) :
    OnDisk (l++p) (s.flushPending a).1 ∧ (s.flushPending a).1.pendingLines = [] ∧
      (s.flushPending a).1.closed = s.closed ∧
      ((s.flushPending a).2 = .ok () → (s.flushPending a).1.writer.buffer = []) := by
  rw [flushPending]
  split_ifs with he
  · obtain rfl : p = [] := by simpa [hp] using he
    have hq := queue_eq (s.flushWriter_queue a)
    obtain ⟨hd,hb⟩ := h.flushWriter ha.flush
    rw [append_nil]
    exact ⟨hd,hq.1.trans (by simpa using he),hq.2,hb⟩
  · have ht : OnDisk l {s with pendingLines := [], pendingBytes := 0} := h.congr rfl rfl rfl
    have hba := ht.writeBatch ha.rotate ha.write 0 p
    have hq := queue_eq (writeBatch_queue {s with pendingLines := [], pendingBytes := 0} a.lines 0
      s.pendingLines)
    rw [← hp] at hba
    generalize writeBatch {s with pendingLines := [], pendingBytes := 0} a.lines 0 s.pendingLines =
      written at hba hq
    obtain ⟨s',r⟩ := written
    obtain rfl : r = .ok () := hba.1
    obtain ⟨hd,hb⟩ := hba.2.flushWriter ha.flush
    have hf := queue_eq (s'.flushWriter_queue a)
    exact ⟨hd,hf.1.trans hq.1,hf.2.trans hq.2,hb⟩
end
section
variable (toVec : Event → Except Error Bytes)

/-- A call of the sink, with what it gets from its environment. -/
inductive Call
  | send (event : Event) (a : FlushAnswers)
  | flush (a : FlushAnswers)
  | close (a : FlushAnswers)

def Call.answers : Call → FlushAnswers
  | .send _ a | .flush a | .close a => a

/-- The sink with the events that `send` queued a line for, and those it returned success for. -/
structure Trace where
  sink : FileJsonlSink
  queued : List Event
  accepted : List Event

def lineOf (event : Event) : Bytes := (toVec event).toOption.getD []

/-- An open sink queues a line for every event that can be serialized. -/
def queues (s : FileJsonlSink) (event : Event) : Bool := !s.closed && (toVec event).toOption.isSome

def Trace.step (t : Trace) : Call → Trace
  | .send event a =>
    let result := t.sink.send toVec event a
    ⟨result.1,if queues toVec t.sink event then t.queued++[event] else t.queued,
      if result.2 = .ok () then t.accepted++[event] else t.accepted⟩
  | .flush a => {t with sink := (t.sink.flush a).1}
  | .close a => {t with sink := (t.sink.close a).1}

/-- Every line queued is on its way to the disk, behind those the file had. -/
structure Sound (old : List Bytes) (t : Trace) : Prop where
  accepted : t.accepted.Sublist t.queued
  stored : ∃ lines pending : List Bytes, OnDisk lines t.sink ∧ t.sink.pendingLines = pending.map (·++[newline]) ∧
    lines++pending = old++t.queued.map (lineOf toVec) ∧
    (t.sink.closed = true → t.sink.writer.buffer = [] ∧ pending = [])

variable {toVec} {old : List Bytes} {t : Trace} {a : FlushAnswers}

lemma Sound.flushed (h : Sound toVec old t) (ho : t.sink.closed = false) (ha : a.Spares) :
    Sound toVec old {t with sink := (t.sink.flushPending a).1} ∧
      (t.sink.flushPending a).1.closed = false ∧ (t.sink.flushPending a).1.pendingLines = [] ∧
      ((t.sink.flushPending a).2 = .ok () → (t.sink.flushPending a).1.writer.buffer = []) := by
  obtain ⟨lines,p,hd,hp,hl,_⟩ := h.stored
  obtain ⟨hf,he,hsa,hb⟩ := flushPending_onDisk hd ha hp
  have hs := hsa.trans ho
  refine ⟨⟨h.accepted,lines++p,[],hf,he,?_,fun hsh => ?_⟩,hs,he,hb⟩
  · rw [append_nil]
    exact hl
  · cases hs.symm.trans hsh

/-- The disk once a call has returned success. -/
def Drained (s : FileJsonlSink) : Prop := s.writer.buffer = [] ∧ s.pendingLines = []
section
variable (h : Sound toVec old t)
include h

lemma Sound.flush (ha : a.Spares) : Sound toVec old (t.step toVec (.flush a)) ∧
      ((t.sink.flush a).2 = .ok () → Drained (t.sink.flush a).1) := by
  rw [Trace.step,FileJsonlSink.flush]
  cases hc : t.sink.closed with
  | true => exact ⟨h,fun ho => by cases ho⟩
  | false =>
    obtain ⟨hf,_,he,hb⟩ := h.flushed hc ha
    exact ⟨hf,fun ho => ⟨hb ho,he⟩⟩

lemma Sound.shut (hd : Drained t.sink) : Sound toVec old {t with sink := {t.sink with closed := true}} := by
  obtain ⟨lines,p,hdi,hp,hl,_⟩ := h.stored
  refine ⟨h.accepted,lines,p,hdi.congr rfl rfl rfl,hp,hl,fun _ => ⟨hd.1,?_⟩⟩
  have hn := hp.symm.trans hd.2
  simpa using hn

lemma Sound.close (ha : a.Spares) : Sound toVec old (t.step toVec (.close a)) ∧
      ((t.sink.close a).2 = .ok () → Drained (t.sink.close a).1) := by
  rw [Trace.step,FileJsonlSink.close]
  cases hc : t.sink.closed with
  | true =>
    obtain ⟨lines,p,hdi,hp,hl,he⟩ := h.stored
    obtain ⟨hb,rfl⟩ := he hc
    exact ⟨h,fun _ => ⟨hb,hp⟩⟩
  | false =>
    obtain ⟨hf,_,he,hb⟩ := h.flushed hc ha
    generalize t.sink.flushPending a = flushed at hf he hb
    obtain ⟨s',r⟩ := flushed
    cases r with
    | error => exact ⟨hf,fun ho => by cases ho⟩
    | ok =>
      cases hs : a.closeSync with
      | error =>
        refine ⟨?_,fun ho => ?_⟩
        · simpa [hs] using hf
        · simp at ho
      | ok =>
        have hd : Drained s' := ⟨hb rfl,he⟩
        refine ⟨?_,fun _ => ?_⟩
        · simpa [hs] using hf.shut hd
        · exact hd

lemma Sound.queued (ho : t.sink.closed = false) {e : Event} {li : Bytes} (hli : toVec e = .ok li) :
    Sound toVec old ⟨t.sink.queued (li++[newline]),t.queued++[e],t.accepted⟩ := by
  obtain ⟨lines,p,hd,hp,hl,_⟩ := h.stored
  refine ⟨h.accepted.trans (sublist_append_left _ _),lines,p++[li],hd.congr rfl rfl rfl,?_,?_,fun hs => ?_⟩
  · show t.sink.pendingLines++[li++[newline]] = _
    simp [hp]
  · rw [← append_assoc,hl]
    simp [lineOf,hli,Except.toOption]
  · cases ho.symm.trans hs

lemma Sound.send (e : Event) (ha : a.Spares) : Sound toVec old (t.step toVec (.send e a)) := by
  rw [Trace.step,FileJsonlSink.send,queues]
  cases hc : t.sink.closed with
  | true => simpa using h
  | false =>
    cases hl : toVec e with
    | error => simpa [Except.toOption] using h
    | ok =>
      have hq := h.queued hc hl
      have hac : (t.accepted++[e]).Sublist (t.queued++[e]) := h.accepted.append (List.Sublist.refl _)
      have hm : ∀ (s : FileJsonlSink) (r : Except Error Unit), Sound toVec old ⟨s,t.queued++[e],t.accepted⟩ →
          Sound toVec old ⟨s,t.queued++[e],
            if r = .ok () then t.accepted++[e] else t.accepted⟩ := by
        intro s r hs
        split
        · exact ⟨hac,hs.stored⟩
        · exact hs
      simp only [Except.toOption,Option.isSome_some,Bool.not_false,Bool.and_self,if_true,Bool.false_eq_true,if_false]
      split
      · exact hm _ _ (hq.flushed hc ha).1
      · exact hm _ _ hq

lemma Sound.step {c : Call} (ha : c.answers.Spares) : Sound toVec old (t.step toVec c) := by
  cases c with
  | send e => exact h.send e ha
  | flush => exact (h.flush ha).1
  | close => exact (h.close ha).1
end
/-- The lines of a drained sink are the complete lines of its files, in order. -/
theorem OnDisk.lines {s : FileJsonlSink} {lines : List Bytes} (h : OnDisk lines s)
    (hb : s.writer.buffer = []) (hp : ∀ li ∈ lines, newline ∉ li) :
    s.disk.files.flatMap (linesOf newline) = lines := by
  obtain ⟨chunks,last,ct,rfl,ha,hac,hc⟩ := h.stored
  rw [hb,append_nil] at hc
  rw [SinkDisk.files,ha,hac,hc,flatMap_append]
  have hla : linesOf newline (terminated newline last) = last :=
    linesOf_terminated fun li hl => hp li (mem_append_right _ hl)
  have hch : (chunks.map (terminated newline)).flatMap (linesOf newline) = chunks.flatten := by
    rw [flatMap_map,flatten_eq_flatMap]
    refine flatMap_congr fun ck hchu => ?_
    refine linesOf_terminated fun li hl => hp li (mem_append_left _ ?_)
    exact mem_flatten.mpr ⟨ck,hchu,hl⟩
  rw [hch]
  simp [hla]

/-- The sink holds the lines of every event it queued, behind those the file had. -/
theorem Sound.files (h : Sound toVec old t)
    (hve : ∀ e line, toVec e = .ok line → newline ∉ line) (ho : ∀ line ∈ old, newline ∉ line)
    (hd : Drained t.sink) :
    t.sink.disk.files.flatMap (linesOf newline) = old++t.queued.map (lineOf toVec) := by
  obtain ⟨lines,p,hdi,hp,hl,_⟩ := h.stored
  obtain rfl : p = [] := by simpa using hp.symm.trans hd.2
  rw [append_nil] at hl
  have hpl : ∀ line ∈ lines, newline ∉ line := by
    intro line hli
    rw [hl] at hli
    rcases mem_append.mp hli with hli | hli
    · exact ho line hli
    · obtain ⟨e,_,rfl⟩ := mem_map.mp hli
      cases hv : toVec e with
      | error => simp [lineOf,hv,Except.toOption]
      | ok bs => simpa [lineOf,hv,Except.toOption] using hve e bs hv
  rw [← hl]
  exact hdi.lines hd.1 hpl

lemma openWith_sound {parent path : String} {cf : FileJsonlSinkConfig} {ex : Option Bytes}
    {a : OpenAnswers} {sink : FileJsonlSink} (ho : openWith parent path cf ex a = .ok sink)
    (hol : ex.getD [] = terminated newline old) : Sound toVec old ⟨sink,[],[]⟩ := by
  have hs : sink.writer = ⟨.active,[]⟩ ∧ sink.disk = ⟨some (ex.getD []),[]⟩ ∧
      sink.pendingLines = [] ∧ sink.closed = false := by
    rw [openWith] at ho
    split at ho
    · cases ho
    · cases ho
    · cases ho
      exact ⟨rfl,rfl,rfl,rfl⟩
  obtain ⟨hw,hd,hp,hc⟩ := hs
  refine ⟨List.Sublist.refl _,old,[],⟨?_,?_,[],old,ex.getD [],rfl,?_,?_,?_⟩,hp,?_,?_⟩
  · rw [hw]
  · rw [hd]
    intro file hf
    cases hf
  · rw [hd]
    rfl
  · rw [hd]
  · rw [hw,append_nil]
    exact hol
  · rfl
  · intro hsh
    cases hc.symm.trans hsh

end
/-- A serializer that tells inserts from other events. -/
def shortVec (event : Event) : Except Error Bytes := .ok (if event.op = .insert then [0x7b,0x7d] else [0x5b,0x5d])
lemma shortVec_plain (e : Event) (line : Bytes) (h : shortVec e = .ok line) : newline ∉ line := by
  cases h
  split <;> decide

def rowEvent (op : Operation) : Event where
  before := none
  after := some .null
  op := op
  source := ⟨"users","0/10",1⟩
  ts := 1
  schema := some "public"
  table := "users"
  primaryKey := none
  snapshot := none
  transaction := none
  envelopeVersion := eventEnvelopeVersion
  beforeIsKeyOnly := false
  unavailableColumns := []
  beforeUnavailableColumns := []

def doneWrite : WriteAnswer := ⟨0,0,.ok ()⟩

/-- Everything succeeds. -/
def doneAnswers : FlushAnswers := ⟨fun _ => ⟨⟨doneWrite,.ok (),1,.ok (),.ok ()⟩,doneWrite⟩,doneWrite,.ok (),.ok ()⟩
lemma doneAnswers_spare : doneAnswers.Spares := ⟨fun _ => ⟨rfl,rfl,rfl,rfl⟩,fun _ => rfl,fun _ h => by cases h⟩

def openSink (rotateSizeBytes : UInt64) : FileJsonlSink where
  writer := ⟨.active,[]⟩
  disk := ⟨some [],[]⟩
  path := "events.jsonl"
  rotateSizeBytes := rotateSizeBytes
  fsyncEvery := 1
  flushCount := 0
  rotationCount := 0
  bytesWritten := 0
  pendingLines := []
  pendingBytes := 0
  closed := false

/-- The disk is full for the first line of a batch. -/
def fullDisk : FlushAnswers :=
  {doneAnswers with lines := fun _ => ⟨⟨doneWrite,.ok (),1,.ok (),.ok ()⟩,⟨0,3,.error "No space left"⟩⟩}

/-- The new file cannot be opened once the old one has been renamed. -/
def noReopen : FlushAnswers :=
  {doneAnswers with lines := fun _ => ⟨⟨doneWrite,.ok (),1,.ok (),.error "Too many open files"⟩,doneWrite⟩}

end FileJsonlSink
end Rustcdc
