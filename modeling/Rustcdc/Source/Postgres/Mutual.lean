import Rustcdc.Source.Postgres.Scram

/-! What a successful authentication says of the server.  The signature of a server-final message is
checked against the exchange, but `AuthenticationOk` is taken at any time, and a password request is
answered within an exchange as well. -/
namespace Rustcdc.Postgres
open List AuthState Machine
section
variable {p : ScramPrimitives}

lemma foldl_or_eq_zero {bs : Bytes} {acc : UInt8} : bs.foldl (· ||| ·) acc = 0 ↔ acc = 0 ∧ ∀ b ∈ bs, b = 0 := by
  induction bs generalizing acc with
  | nil => simp
  | cons b bs ih =>
    rw [foldl_cons,ih,UInt8.or_eq_zero_iff]
    simp only [forall_mem_cons,and_assoc]

lemma constantTimeEq_iff {left right : Bytes} : constantTimeEq left right = true ↔ left = right := by
  rw [constantTimeEq,Bool.and_eq_true,decide_eq_true_eq,decide_eq_true_eq,foldl_or_eq_zero]
  constructor
  · rintro ⟨hl,_,hz⟩
    induction left generalizing right with
    | nil => exact (eq_nil_of_length_eq_zero hl.symm).symm
    | cons a left ih =>
      cases right with
      | nil => cases hl
      | cons =>
        rw [zipWith_cons_cons,forall_mem_cons] at hz
        rw [UInt8.xor_eq_zero_iff.mp hz.1,ih (Nat.succ.inj hl) hz.2]
  · rintro rfl
    refine ⟨rfl,rfl,fun b hb => ?_⟩
    simp only [zipWith_self,mem_map] at hb
    obtain ⟨a,_,rfl⟩ := hb
    exact UInt8.xor_self

/-- The signature field of a server-final message, in front of which it reports no error, is the
expected signature. -/
def Verified (p : ScramPrimitives) (expected : Bytes) (serverFinal : String) : Prop :=
  ∃ before encoded after, splitOn ',' serverFinal.toList = before++("v=".toList++encoded)::after ∧
    (∀ field ∈ before, stripFront "e=".toList field = none ∧ stripFront "v=".toList field = none) ∧
    p.decode (String.ofList encoded) = .ok expected

lemma stripFront_some {fr cs rest : List Char} (h : stripFront fr cs = some rest) : cs = fr++rest := by
  rw [stripFront] at h
  split at h
  · rename_i hf
    obtain ⟨tail,rfl⟩ := isPrefixOf_iff_prefix.mp hf
    simpa using h
  · cases h

lemma checkFields_ok {expected : Bytes} {fs : List (List Char)}
    (h : ScramExchange.checkFields p expected fs = .ok ()) :
    ∃ b encoded af, fs = b++("v=".toList++encoded)::af ∧
      (∀ f ∈ b, stripFront "e=".toList f = none ∧ stripFront "v=".toList f = none) ∧
      p.decode (String.ofList encoded) = .ok expected := by
  induction fs with
  | nil => cases h
  | cons f fs ih =>
    rw [ScramExchange.checkFields] at h
    split at h
    · cases h
    · rename_i he
      split at h
      · rename_i hs
        obtain ⟨b,encoded,af,rfl,hb,hd⟩ := ih h
        exact ⟨f::b,encoded,af,rfl,forall_mem_cons.mpr ⟨⟨he,hs⟩,hb⟩,hd⟩
      · rename_i encoded hs
        split at h
        · cases h
        · rename_i actual hd
          split at h
          · rename_i heq
            rw [constantTimeEq_iff.mp heq] at hd
            exact ⟨[],encoded,fs,by rw [stripFront_some hs]; rfl,fun _ hm => (not_mem_nil hm).elim,hd⟩
          · cases h

lemma verifyServerFinal_ok {x : ScramExchange} {serverFinal : String}
    (h : x.verifyServerFinal p serverFinal = .ok ()) :
    ∃ expected, x.serverSignature = some expected ∧ Verified p expected serverFinal := by
  rw [ScramExchange.verifyServerFinal] at h
  split at h
  · cases h
  · rename_i expected he
    exact ⟨expected,he,checkFields_ok h⟩

def Extends (clientFirstBare : String) (parsed : ServerFirst) : Prop :=
  ∃ clientNonce, clientFirstBare.toList = "n=,r=".toList++clientNonce ∧ clientNonce <+: parsed.nonce.toList
def ScramExchange.expecting (x : ScramExchange) (signature : Bytes) : ScramExchange :=
  {x with serverSignature := some signature}

lemma clientFinal_ok {x x' : ScramExchange} {serverFirst r : String} (h : x.clientFinal p serverFirst = .ok (x',r)) :
    ∃ ps, ServerFirst.parse p serverFirst = .ok ps ∧ Extends x.clientFirstBare ps ∧
      x' = x.expecting (serverProof p x.password x.clientFirstBare serverFirst ps) := by
  rw [ScramExchange.clientFinal] at h
  split at h
  · cases h
  · rename_i ps hp
    split at h
    · cases h
    · rename_i clientNonce hn
      split at h
      · cases h
      · rename_i he
        obtain ⟨rfl,_⟩ := Prod.mk.inj (Except.ok.inj h)
        exact ⟨ps,hp,⟨clientNonce,stripFront_some hn,by simpa using he⟩,rfl⟩
end
section
/-- The request a pass reads, if it reads one. -/
def AuthAnswer.request (a : AuthAnswer) : Option (AuthKind × Bytes) := a.message.toOption.bind (·.request.toOption)

variable {p : ScramPrimitives} {config : AuthConfig} {s s' : AuthState} {a : AuthAnswer}

/-- What a pass that goes on has done. -/
inductive Answered (p : ScramPrimitives) (config : AuthConfig) (s : AuthState) (a : AuthAnswer) :
    AuthState → Prop
  | cleartext (body payload : Bytes) (request : a.request = some (.cleartextPassword,body)) :
      Answered p config s a {s with sent := s.sent++[.cleartext payload]}
  | md5 (body payload : Bytes) (request : a.request = some (.md5Password,body)) :
      Answered p config s a {s with sent := s.sent++[.md5 payload]}
  | sasl (body payload : Bytes) (request : a.request = some (.sasl,body)) (x : ScramExchange)
      (password : x.password = config.password) (unsigned : x.serverSignature = none) :
      Answered p config s a ⟨some x,s.sent++[.saslInitial payload]⟩
  | saslContinue (body payload : Bytes) (request : a.request = some (.saslContinue,body))
      {serverFirst : String} (text : p.fromUtf8 body = .ok serverFirst) {x : ScramExchange}
      (scram : s.scram = some x) {parsed : ServerFirst}
      (parse : ServerFirst.parse p serverFirst = .ok parsed)
      (extend : Extends x.clientFirstBare parsed) :
      Answered p config s a ⟨some (x.expecting (serverProof p x.password x.clientFirstBare serverFirst parsed)),
          s.sent++[.saslResponse payload]⟩
  | saslFinal (body : Bytes) (request : a.request = some (.saslFinal,body)) {serverFinal : String}
      (text : p.fromUtf8 body = .ok serverFinal) {x : ScramExchange} (scram : s.scram = some x)
      {expected : Bytes} (signature : x.serverSignature = some expected)
      (verified : Verified p expected serverFinal) : Answered p config s a s

lemma write_none {me : Outgoing} {an : Except Error Unit}
    (h : s.write me an = (s',none)) : s' = {s with sent := s.sent++[me]} := by
  cases an with
  | error => cases h
  | ok => exact (Prod.mk.inj h).1.symm

lemma pass_answered (h : s.pass p config a = (s',none)) : Answered p config s a s' := by
  rw [AuthState.pass] at h
  split at h
  · cases h
  · rename_i me hm
    have hr : ∀ request, me.request = .ok request → a.request = some request := by
      intro request hr
      simp [AuthAnswer.request,hm,hr,Except.toOption]
    split at h
    · cases h
    · cases h
    · rename_i body hk
      rw [cleartext] at h
      split at h
      · cases h
      · rw [write_none h]
        exact .cleartext body _ (hr _ hk)
    · rename_i body hk
      rw [md5] at h
      split at h
      · cases h
      · rw [write_none h]
        exact .md5 body _ (hr _ hk)
    · rename_i body hk
      rw [sasl] at h
      split at h
      · cases h
      · split at h
        · cases h
        · rename_i x clientFirst hs
          split at h
          · cases h
          · rw [write_none h]
            have hx : x.password = config.password ∧ x.serverSignature = none := by
              unfold ScramExchange.start at hs
              split at hs
              · cases hs
              · obtain ⟨rfl,_⟩ := Prod.mk.inj (Except.ok.inj hs)
                exact ⟨rfl,rfl⟩
            exact .sasl body _ (hr _ hk) x hx.1 hx.2
    · rename_i body hk
      rw [saslContinue] at h
      split at h
      · cases h
      · cases h
      · rename_i x serverFirst hsc ht
        split at h
        · cases h
        · rename_i x' reply hf
          obtain ⟨ps,hp,he,rfl⟩ := clientFinal_ok hf
          rw [write_none h]
          exact .saslContinue body _ (hr _ hk) ht hsc hp he
    · rename_i body hk
      rw [saslFinal] at h
      split at h
      · cases h
      · cases h
      · rename_i x serverFinal hsc ht
        split at h
        · cases h
        · rename_i hv
          obtain ⟨expected,hsi,hv⟩ := verifyServerFinal_ok hv
          obtain ⟨rfl,_⟩ := Prod.mk.inj h
          exact .saslFinal body (hr _ hk) ht hsc hsi hv
    · cases h
end
section
/-- The loop with the server's messages of the current exchange. -/
structure AuthTrace where
  state : AuthState
  serverFirst : Option String
  serverFinal : Option String

variable (p : ScramPrimitives) (config : AuthConfig)

/-- A new exchange has no messages yet, and a new server-first message asks for a new final one. -/
def AuthTrace.note (t : AuthTrace) (state : AuthState) : Option (AuthKind × Bytes) → AuthTrace
  | some (.sasl,_) => ⟨state,none,none⟩
  | some (.saslContinue,body) => ⟨state,(p.fromUtf8 body).toOption,none⟩
  | some (.saslFinal,body) => ⟨state,t.serverFirst,(p.fromUtf8 body).toOption⟩
  | _ => {t with state := state}

def AuthTrace.pass (t : AuthTrace) (a : AuthAnswer) : AuthTrace × Option (Except Error Unit) :=
  (t.note p (t.state.pass p config a).1 a.request,(t.state.pass p config a).2)
def AuthTrace.start : AuthTrace := ⟨⟨none,[]⟩,none,none⟩
def AuthKind.asksPassword : AuthKind → Bool
  | .cleartextPassword | .md5Password => true
  | _ => false

/-- Within an exchange the server reports success only after a server-final message for it, and does
not ask for the password. -/
structure Orderly (t : AuthTrace) (a : AuthAnswer) : Prop where
  ok : ∀ body, a.request = some (.ok,body) → t.state.scram.isSome → t.serverFinal.isSome
  password : ∀ kind body, a.request = some (kind,body) → kind.asksPassword = true → t.state.scram = none

def Outgoing.isSasl : Outgoing → Bool
  | .saslInitial _ | .saslResponse _ => true
  | _ => false

/-- No password follows a message of an exchange. -/
def Discreet (sent : List Outgoing) : Prop :=
  sent.Pairwise fun before after => before.isSasl = true → after.isPassword = false

/-- A server that sent these two messages knows the password and answers this exchange. -/
def Proves (password clientFirstBare serverFirst serverFinal : String) : Prop :=
  ∃ parsed, ServerFirst.parse p serverFirst = .ok parsed ∧ Extends clientFirstBare parsed ∧
    Verified p (serverProof p password clientFirstBare serverFirst parsed) serverFinal

def ServerSent (answers : List AuthAnswer) (kind : AuthKind) (text : String) : Prop :=
  ∃ a ∈ answers, ∃ body, a.request = some (kind,body) ∧ p.fromUtf8 body = .ok text

/-- What a running exchange has come to. -/
structure Exchanged (answers : List AuthAnswer) (t : AuthTrace) : Prop where
  password : ∀ x, t.state.scram = some x → x.password = config.password
  signed : ∀ x expected, t.state.scram = some x → x.serverSignature = some expected →
    ∃ serverFirst parsed, t.serverFirst = some serverFirst ∧ ServerSent p answers .saslContinue serverFirst ∧
      ServerFirst.parse p serverFirst = .ok parsed ∧ Extends x.clientFirstBare parsed ∧
      expected = serverProof p config.password x.clientFirstBare serverFirst parsed
  final : ∀ serverFinal, t.serverFinal = some serverFinal → ServerSent p answers .saslFinal serverFinal ∧
    ∃ x expected, t.state.scram = some x ∧ x.serverSignature = some expected ∧ Verified p expected serverFinal
  discreet : Discreet t.state.sent
  untouched : t.state.scram = none → ∀ message ∈ t.state.sent, message.isSasl = false

variable {p config} {answers : List AuthAnswer} {t t' : AuthTrace} {a : AuthAnswer} {s s' : AuthState} {m : Outgoing}

lemma Discreet.push {sent : List Outgoing} (h : Discreet sent)
    (hm : m.isPassword = true → ∀ b ∈ sent, b.isSasl = false) :
    Discreet (sent++[m]) := by
  rw [Discreet,pairwise_append]
  refine ⟨h,pairwise_singleton _ _,fun b hb af ha hs => ?_⟩
  rw [mem_singleton.mp ha]
  by_contra hp
  have hpl := hm (by simpa using hp) b hb
  rw [hpl] at hs
  cases hs

lemma Exchanged.passwordSent (h : Exchanged p config answers t) (hs : t.state.scram = none)
    (m : Outgoing) (hp : m.isSasl = false) :
    Exchanged p config answers {t with state := {t.state with sent := t.state.sent++[m]}} where
  password := h.password
  signed := h.signed
  final := h.final
  discreet := h.discreet.push fun _ => h.untouched hs
  untouched _ earlier he := by
    rcases mem_append.mp he with hse | hl
    · exact h.untouched hs earlier hse
    · rw [mem_singleton.mp hl]
      exact hp

lemma Exchanged.pass (h : Exchanged p config answers t) (ha : a ∈ answers) (ho : Orderly t a)
    (hpas : t.pass p config a = (t',none)) : Exchanged p config answers t' := by
  obtain ⟨ht,hre⟩ := Prod.mk.inj hpas
  have han : Answered p config t.state a (t.state.pass p config a).1 := pass_answered (Prod.ext rfl hre)
  subst ht
  generalize (t.state.pass p config a).1 = s at han
  cases han with
  | cleartext body pl hr | md5 body pl hr =>
    rw [hr]
    exact h.passwordSent (ho.password _ body hr rfl) _ rfl
  | sasl body pl hr x hpa hu =>
    rw [hr]
    refine ⟨?_,?_,?_,h.discreet.push (fun hp => by cases hp),fun hn => by cases hn⟩
    · intro x' hx'
      cases hx'
      exact hpa
    · intro x' expected hx' he
      cases hx'
      cases hu.symm.trans he
    · intro serverFinal hf
      cases hf
  | @saslContinue body pl hr serverFirst hte x hs ps hpar hex =>
    rw [hr]
    refine ⟨?_,?_,?_,h.discreet.push (fun hp => by cases hp),fun hn => by cases hn⟩
    · intro x' hx'
      cases hx'
      exact h.password x hs
    · intro x' expected hx' he
      cases hx'
      cases he
      refine ⟨serverFirst,ps,?_,⟨a,ha,body,hr,hte⟩,hpar,hex,?_⟩
      · simp [AuthTrace.note,hte,Except.toOption]
      · rw [← h.password x hs]
        rfl
    · intro serverFinal hf
      cases hf
  | @saslFinal body hr serverFinal hte x hs expected hsi hv =>
    rw [hr]
    refine ⟨h.password,h.signed,?_,h.discreet,h.untouched⟩
    intro text hf
    have hsa : serverFinal = text := by
      simpa [AuthTrace.note,hte,Except.toOption] using hf
    subst hsa
    exact ⟨⟨a,ha,body,hr,hte⟩,x,expected,hs,hsi,hv⟩

lemma exchanged_start : Exchanged p config answers AuthTrace.start where
  password _ hx := by cases hx
  signed _ _ hx := by cases hx
  final _ hf := by cases hf
  discreet := .nil
  untouched _ _ hm := by cases hm

lemma write_not_ok {an : Except Error Unit} : s.write m an ≠ (s',some (.ok ())) := by
  intro h
  cases an <;> cases h

lemma pass_ok (h : s.pass p config a = (s',some (.ok ()))) : s' = s ∧ ∃ body, a.request = some (.ok,body) := by
  rw [AuthState.pass] at h
  split at h
  · cases h
  · rename_i m hm
    split at h
    · cases h
    · rename_i body hk
      refine ⟨(Prod.mk.inj h).1.symm,body,?_⟩
      simp [AuthAnswer.request,hm,hk,Except.toOption]
    · rw [cleartext] at h
      split at h
      · cases h
      · exact absurd h write_not_ok
    · rw [md5] at h
      split at h
      · cases h
      · exact absurd h write_not_ok
    · rw [sasl] at h
      split at h
      · cases h
      · split at h
        · cases h
        · split at h
          · cases h
          · exact absurd h write_not_ok
    · rw [saslContinue] at h
      split at h
      · cases h
      · cases h
      · split at h
        · cases h
        · exact absurd h write_not_ok
    · rw [saslFinal] at h
      split at h
      · cases h
      · cases h
      · split at h <;> cases h
    · cases h

@[simp] lemma AuthTrace.note_state (t : AuthTrace) (s : AuthState)
    (q : Option (AuthKind × Bytes)) : (t.note p s q).state = s := by
  unfold AuthTrace.note
  split <;> rfl

lemma authenticate_trace {re : Except Error Unit} (h : authenticate p config answers = some (s,re)) :
    ∃ t : AuthTrace, t.state = s ∧ loop (AuthTrace.pass p config) AuthTrace.start answers = some (t,re) := by
  have hm : authenticate p config answers = (loop (AuthTrace.pass p config) AuthTrace.start answers).map fun ended =>
        (ended.1.state,ended.2) :=
    loop_map AuthTrace.state (fun t a => by simp [AuthTrace.pass]) AuthTrace.start answers
  rw [h] at hm
  obtain ⟨⟨t,r⟩,hl,he⟩ := Option.map_eq_some_iff.mp hm.symm
  obtain ⟨hs,rfl⟩ := Prod.mk.inj he
  exact ⟨t,hs,hl⟩

lemma write_some {an : Except Error Unit} {re : Except Error Unit} (h : s.write m an = (s',some re)) :
    s'.sent = s.sent := by
  cases an with
  | error =>
    cases h
    rfl
  | ok => cases h

lemma fail_some {re re' : Option (Except Error Unit)} (h : (s,re) = (s',re')) : s'.sent = s.sent :=
  congrArg AuthState.sent (Prod.mk.inj h).1.symm

/-- The pass a call ends with sends nothing. -/
lemma pass_ended {re : Except Error Unit} (h : s.pass p config a = (s',some re)) : s'.sent = s.sent := by
  rw [AuthState.pass] at h
  split at h
  · exact fail_some h
  · split at h
    · exact fail_some h
    · exact fail_some h
    · rw [cleartext] at h
      split at h
      · exact fail_some h
      · exact write_some h
    · rw [md5] at h
      split at h
      · exact fail_some h
      · exact write_some h
    · rw [sasl] at h
      split at h
      · exact fail_some h
      · split at h
        · exact fail_some h
        · split at h
          · have hs := fail_some h
            exact hs
          · have hs := write_some h
            exact hs
    · rw [saslContinue] at h
      split at h
      · exact fail_some h
      · exact fail_some h
      · split at h
        · exact fail_some h
        · have hs := write_some h
          exact hs
    · rw [saslFinal] at h
      split at h
      · exact fail_some h
      · exact fail_some h
      · split at h
        · exact fail_some h
        · cases h
    · exact fail_some h

/-- However far the exchange has come and however it ended, no password followed its messages. -/
lemma Exchanged.reached (h : Exchanged p config answers t) {rest : List AuthAnswer} (hin : ∀ a ∈ rest, a ∈ answers)
    (ho : Machine.LoopMeets (AuthTrace.pass p config) Orderly t rest) :
    Discreet (Machine.reached (AuthState.pass p config) t.state rest).sent := by
  induction rest generalizing t with
  | nil => exact h.discreet
  | cons a rest ih =>
    obtain ⟨ha,hr⟩ := forall_mem_cons.mp hin
    rw [Machine.reached]
    cases hpa : t.state.pass p config a with
    | mk s re =>
      have ht : t.pass p config a = (t.note p s a.request,re) := by rw [AuthTrace.pass,hpa]
      cases re with
      | none =>
        have hl := ho.2
        rw [ht] at hl
        have hd := ih (h.pass ha ho.1 ht) hr hl
        rwa [AuthTrace.note_state] at hd
      | some => exact pass_ended hpa ▸ h.discreet

end
/-- Primitives whose signatures are one byte. -/
def tinyPrimitives : ScramPrimitives where
  hmac _ _ := [1]
  sha256 _ := [2]
  md5 _ := [3]
  encode _ := "QQ"
  decode _ := .ok [1]
  fromUtf8 bytes := .ok (String.ofList (bytes.map fun b => Char.ofNat b.toNat))
  fromUtf8Lossy bytes := String.ofList (bytes.map fun b => Char.ofNat b.toNat)

def tlsConfig : AuthConfig := ⟨"cdc","secret",false⟩

/-- A request of the server, with a nonce and a write that succeed. -/
def requests (code : UInt8) (body : String) : AuthAnswer :=
  ⟨.ok ⟨authenticationTag,[0,0,0,code]++body.toList.map fun c => UInt8.ofNat c.toNat⟩,some [7],.ok ()⟩

lemma requests_request (code : UInt8) (body : String) : (requests code body).request =
      some (.ofCode code.toNat,body.toList.map fun c => UInt8.ofNat c.toNat) := by
  have hc : code.toNat < 2147483648 := code.toNat_lt.trans (by decide)
  simp [AuthAnswer.request,requests,BackendMessage.request,readI32,Except.toOption,Except.map,hc]

def fullExchange : List AuthAnswer :=
  [requests 10 "SCRAM-SHA-256\x00",requests 11 "r=QQx,s=QQ,i=1",requests 12 "v=QQ",requests 0 ""]

lemma orderly_of_request {t : AuthTrace} {a : AuthAnswer} {kind : AuthKind} {body : Bytes}
    (hr : a.request = some (kind,body))
    (ho : kind = .ok → t.state.scram.isSome → t.serverFinal.isSome)
    (hp : kind.asksPassword = false) : Orderly t a where
  ok body' h := by
    obtain ⟨rfl,_⟩ := Prod.mk.inj (Option.some.inj (hr.symm.trans h))
    exact ho rfl
  password kind' body' h ha := by
    obtain ⟨rfl,_⟩ := Prod.mk.inj (Option.some.inj (hr.symm.trans h))
    cases hp.symm.trans ha

lemma fullExchange_orderly :
    Machine.LoopMeets (AuthTrace.pass tinyPrimitives tlsConfig) Orderly AuthTrace.start fullExchange := by
  have hs := requests_request 10 "SCRAM-SHA-256\x00"
  have hf := requests_request 11 "r=QQx,s=QQ,i=1"
  have hfi := requests_request 12 "v=QQ"
  have ho := requests_request 0 ""
  refine loopMeets_cons (orderly_of_request hs (fun h => by cases h) rfl) fun _ => ?_
  refine loopMeets_cons (orderly_of_request hf (fun h => by cases h) rfl) fun _ => ?_
  refine loopMeets_cons (orderly_of_request hfi (fun h => by cases h) rfl) fun _ => ?_
  refine loopMeets_cons (orderly_of_request ho (fun _ _ => by decide +kernel) rfl) fun _ => trivial

end Rustcdc.Postgres
