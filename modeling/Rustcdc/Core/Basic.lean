import Mathlib

/-! Errors, call endings and the machine arithmetic shared by every component. -/
namespace Rustcdc
inductive SourceErrorKind
  | networkTransient | authFailed | schemaMismatch | slotNotFound | quotaExceeded | unknown
  deriving DecidableEq

def SourceErrorKind.asStr : SourceErrorKind → String
  | .networkTransient => "network_transient"
  | .authFailed => "auth_failed"
  | .schemaMismatch => "schema_mismatch"
  | .slotNotFound => "slot_not_found"
  | .quotaExceeded => "quota_exceeded"
  | .unknown => "unknown"

def SourceErrorKind.isRecoverable : SourceErrorKind → Bool
  | .networkTransient | .quotaExceeded | .unknown => true
  | .authFailed | .schemaMismatch | .slotNotFound => false

inductive ErrorKind
  | transient | terminal | configuration | backpressure
  deriving DecidableEq

/-- The crate's errors with their message texts. -/
inductive Error
  | sourceError (message : String)
  | classifiedSourceError (kind : SourceErrorKind) (message : String)
  | context (context : String) (source : Error)
  | checkpointError (message : String)
  | schemaError (message : String)
  | validationError (messages : List String)
  | configError (message : String)
  | ioError (message : String)
  | serializationError (message : String)
  | timeoutError (message : String)
  | unrecoverable (message : String)
  | backpressure (message : String)
  | aggregate (kind : ErrorKind) (detail : String)
  | stateError (message : String)
  | transformError (message : String)
  | notImplemented (message : String)
  | postCommitConfirmFailed (checkpointSafe : Bool) (detail : String)
  deriving DecidableEq

def Error.kind : Error → ErrorKind
  | .context _ source => source.kind
  | .sourceError _ | .timeoutError _ => .transient
  | .classifiedSourceError kind _ => if kind.isRecoverable then .transient else .terminal
  | .backpressure _ => .backpressure
  | .aggregate kind _ => kind
  | .configError _ | .notImplemented _ => .configuration
  | _ => .terminal

/-- The `Debug` text of a list of messages. -/
def debugStrings (messages : List String) : String := "["++", ".intercalate (messages.map String.quote)++"]"

def Error.display : Error → String
  | .sourceError m => "source error: "++m
  | .classifiedSourceError kind m => "source error ["++kind.asStr++"]: "++m
  | .context c _ => c
  | .checkpointError m => "checkpoint error: "++m
  | .schemaError m => "schema error: "++m
  | .validationError ms => "validation error(s): "++debugStrings ms
  | .configError m => "configuration error: "++m
  | .ioError m => m
  | .serializationError m => "serialization error: "++m
  | .timeoutError m => "timeout error: "++m
  | .unrecoverable m => "unrecoverable error: "++m
  | .backpressure m => "backpressure: "++m
  | .aggregate _ detail => detail
  | .stateError m => "state error: "++m
  | .transformError m => "transform error: "++m
  | .notImplemented m => "not implemented: "++m
  | .postCommitConfirmFailed _ detail => 
      "post-commit confirm failed (checkpoint is safe — replay is safe): "++detail

def Error.isRecoverable (e : Error) : Bool := e.kind = .transient

/-- How a call ends.  A panic leaves behind whatever the call had already written. -/
inductive Ending (α : Type)
  | ok (value : α)
  | err (error : Error)
  | panicked
  deriving DecidableEq

/-- A build profile; only integer-overflow checking changes what the code computes. -/
structure Profile where
  overflowChecks : Bool

def Profile.debug : Profile := ⟨true⟩
def Profile.release : Profile := ⟨false⟩

variable (p : Profile)

/-- `a + b` on `u64`: a checked build panics where a release build wraps. -/
def Profile.add (a b : UInt64) : Option UInt64 :=
  if p.overflowChecks && decide (2^64 ≤ a.toNat+b.toNat) then none else some (a+b)

/-- `a - b` on `u64`, likewise. -/
def Profile.sub (a b : UInt64) : Option UInt64 :=
  if p.overflowChecks && decide (a < b) then none else some (a-b)

lemma Profile.add_of_fits {a b : UInt64} (h : a.toNat+b.toNat < 2^64) : p.add a b = some (a+b) := by
  have hn : ¬ 2^64 ≤ a.toNat+b.toNat := by omega
  rw [Profile.add,if_neg (by simp only [hn]; simp)]
lemma Profile.sub_of_le {a b : UInt64} (h : b ≤ a) : p.sub a b = some (a-b) := by
  have hn : ¬ a < b := by simpa using h
  simp [Profile.sub,hn]
section
variable (a b : UInt64)

lemma Profile.release_add : Profile.release.add a b = some (a+b) := rfl

/-- `u64::saturating_add`. -/
def saturatingAdd : UInt64 :=
  if a.toNat+b.toNat < 2^64 then a+b else UInt64.ofNat (2^64-1)

lemma saturatingAdd_toNat : (saturatingAdd a b).toNat = min (a.toNat+b.toNat) (2^64-1) := by
  unfold saturatingAdd
  split_ifs with h
  · rw [UInt64.toNat_add,Nat.mod_eq_of_lt h]
    omega
  · have hl : (2^64-1 : ℕ) < 2^64 := by decide
    rw [UInt64.toNat_ofNat_of_lt' hl]
    omega
end
lemma isOk_eq_true {α : Type} {x : Except Error α} (h : x.isOk = true) : ∃ a, x = .ok a := by
  cases x with
  | error => exact absurd h (by simp [Except.isOk,Except.toBool])
  | ok a => exact ⟨a,rfl⟩
section
variable {ε α β : Type} {x : Except ε α} {b : β}

/-- From a bind that succeeds, its two parts. -/
theorem except_bind_ok {f : α → Except ε β} (h : x >>= f = .ok b) : ∃ a, x = .ok a ∧ f a = .ok b := by
  cases x with
  | error => exact absurd h (by simp [bind,Except.bind])
  | ok a => exact ⟨a,rfl,h⟩
lemma except_map_ok {f : α → β} (h : x.map f = .ok b) : ∃ a, x = .ok a ∧ f a = b := by
  cases x with
  | error => exact absurd h (by simp [Except.map])
  | ok a => exact ⟨a,rfl,Except.ok.inj h⟩
end
section
open List
variable {α β : Type*} {R : α → β → Prop} {l : List α} {l' : List β}

lemma forall₂_mem_right (hal : List.Forall₂ R l l') {b : β} (hb : b ∈ l') : ∃ a ∈ l, R a b := by
  induction hal with
  | nil => cases hb
  | cons ho hr ih =>
    rcases mem_cons.mp hb with rfl | hl
    · exact ⟨_,mem_cons_self,ho⟩
    · obtain ⟨a,ha,hR⟩ := ih hl
      exact ⟨a,mem_cons_of_mem _ ha,hR⟩

lemma pairwise_of_forall₂ {S : α → α → Prop} {S' : β → β → Prop} (ha : List.Forall₂ R l l') (hl : l.Pairwise S)
    (hre : ∀ a ∈ l, ∀ b ∈ l, ∀ a' b', R a a' → R b b' → S a b → S' a' b') : l'.Pairwise S' := by
  induction ha with
  | nil => exact List.Pairwise.nil
  | @cons a a' l l' ho hr ih =>
    rw [pairwise_cons] at hl
    refine pairwise_cons.mpr ⟨fun b' hb' => ?_,ih hl.2 fun b hb c hc =>
      hre b (mem_cons_of_mem _ hb) c (mem_cons_of_mem _ hc)⟩
    obtain ⟨b,hb,hR⟩ := forall₂_mem_right hr hb'
    exact hre a mem_cons_self b (mem_cons_of_mem _ hb) a' b' ho hR (hl.1 b hb)
end
end Rustcdc
