import AxiomRT.Dispatch.Proofs.AuthorityProofs
import AxiomRT.Dispatch.Proofs.DeliveryProofs
import AxiomRT.User.Proofs.HandlerProofs

/-!
# Proofs: one reply for one request, on the dispatcher

A request that reaches a service at the head of its loop is followed by exactly one reply. It gets
there if nobody disturbs the exchange: the endpoint of a service is shared by its clients and
carries requests and replies alike.
-/

namespace AxiomRT.User

open Lib Dispatch Prog

variable {img : Image} {x : Run img} {n : ServiceName} {m : ℕ → Stand n.program.State}

/-! ## Positions -/

/-- The calls that are left are those of a handler. -/
def Stand.Lawful {σ : Type} : Stand σ → Prop
  | .here p => p.Only User.Lawful
  | .waits p _ => p.Only User.Lawful

theorem goOn_lawful {p : UserProg n.program.State} (h : p.Only Lawful)
    (a : (n.program.next p).Answer) : (n.program.goOn p a).Only Lawful := by
  cases p with
  | ret s =>
    simp only [Service.goOn]
    split
    · exact .ret s
    · exact (n.handle_replies s _).only
  | call c k => exact h.2 a

theorem Proceeds.lawful {i : ℕ} {s s' : Stand n.program.State}
    (h : Proceeds n.program x n.slot i s s') (hs : s.Lawful) : s'.Lawful := by
  cases h with
  | begins s life => exact n.start_replies.only
  | returns same on ecall asked back held => exact goOn_lawful hs _
  | leaves same on ecall asked off => exact hs
  | interrupted same on trap => exact hs
  | resumes same off back held => exact goOn_lawful hs _
  | waits same off off' => exact hs
  | stays same off => exact hs

theorem Executes.lawful (h : Executes n.program x n.slot m) : ∀ i, i ≤ x.len → (m i).Lawful := by
  refine x.induct ?_ fun i hi hs => (h.step i hi).lawful hs
  rw [h.init]
  exact n.start_replies.only

/-! ## The head of the loop -/

/-- In this run the service can use its endpoint through its capability 0 only. -/
structure Owns (x : Run img) (n : ServiceName) : Prop where
  send : ∀ i, i ≤ x.len → (x.st i).current = n.slot →
    (x.st i).capCheck n.slot 0 rightSend = .ok n.endpoint.val
  recv : ∀ i cap, i ≤ x.len → (x.st i).current = n.slot →
    (x.st i).capCheck n.slot cap rightRecv = .ok n.endpoint.val → cap = 0

/-- The call asks to start the table entry of slot `t` or to restart some task. -/
def startsSlot (table : List ServiceDef) (c : Core) (t : Slot) : Bool :=
  match c.frame.sys with
  | some .taskStart => table[c.frame.arg 0]?.any (·.slot = t.val)
  | some .taskRestart => true
  | _ => false

theorem not_begins {table : List ServiceDef} {c : Core} {tr : Trap} {t : Slot}
    (h : startsSlot table c t = false) : ¬ Begins table c tr t := by
  have hentry : c.frame.sys = some .taskStart →
      ¬ ∃ d, table[c.frame.arg 0]? = some d ∧ d.slot = t.val := by
    rintro hs ⟨d, hd, hslot⟩
    simp [startsSlot, hs, hd, hslot] at h
  rintro (⟨-, -, hs, hd, -⟩ | ⟨-, -, ⟨hs, hd, -⟩ | ⟨hs, -⟩⟩)
  · exact hentry hs hd
  · exact hentry hs hd
  · simp [startsSlot, hs] at h

/-- No task begins its life by a call of its own for a message. -/
theorem not_beginsAt {i : ℕ} {t r : Slot} {sys : Sys} (h : CallAt x i t sys)
    (hsys : sys = .send ∨ sys = .recv) : ¬ BeginsAt x i r := by
  apply not_begins
  unfold startsSlot
  rw [h.sys]
  rcases hsys with rfl | rfl <;> rfl

/-- A call of the service is the next call of its program. -/
theorem Executes.asked (h : Executes n.program x n.slot m) {i : ℕ} {sys : Sys}
    (hcall : CallAt x i n.slot sys) (hsys : sys = .send ∨ sys = .recv) :
    ∃ p, m i = .here p ∧ (n.program.next p).Asked img (entry x i) := by
  have hstep := h.step i hcall.lt
  generalize m i = s, m (i + 1) = s' at hstep
  cases hstep with
  | begins s life => exact absurd life (not_beginsAt hcall hsys)
  | returns same on ecall asked back held => exact ⟨_, rfl, asked⟩
  | leaves same on ecall asked off => exact ⟨_, rfl, asked⟩
  | interrupted same on trap => exact absurd hcall.trap trap
  | resumes same off back held => exact absurd hcall.caller off
  | waits same off off' => exact absurd hcall.caller off
  | stays same off => exact absurd hcall.caller off

/-- A receive on its own endpoint is made at the head of the loop, with the request buffer. -/
theorem Executes.head (h : Executes n.program x n.slot m) (hown : Owns x n) {p dst cap : ℕ}
    (hrecv : RecvAt x p n.slot n.endpoint dst cap) :
    HeadAt x n m p ∧ cap = n.program.room := by
  obtain ⟨pos, hpos, hasked⟩ := h.asked hrecv.call (Or.inr rfl)
  have hlawful := h.lawful p hrecv.call.lt.le
  rw [hpos] at hlawful
  cases pos with
  | ret s =>
    obtain ⟨-, -, hroom, -⟩ := hasked
    exact ⟨⟨hrecv.call, s, hpos⟩, hrecv.req.cap_eq.symm.trans hroom⟩
  | call c k =>
    exfalso
    have hsys : (entry x p).frame.sys = some .recv := hrecv.call.sys
    cases c with
    | recv cap' room =>
      obtain ⟨-, harg, -, -⟩ := hasked
      have hres := hrecv.req.resolves
      have hcur : (entry x p).current = n.slot := hrecv.call.caller
      rw [harg, hcur] at hres
      exact hlawful.1 (hown.recv p cap' hrecv.call.lt.le hrecv.call.caller hres)
    | send cap' msg => cases hsys.symm.trans hasked.1
    | conWrite bytes => cases hsys.symm.trans hasked.1
    | info kind room slot => cases hsys.symm.trans hasked.1
    | taskStart idx => cases hsys.symm.trans hasked.1
    | taskKill slot => cases hsys.symm.trans hasked.1
    | taskRestart slot => cases hsys.symm.trans hasked.1
    | shutdown => cases hsys.symm.trans hasked

/-! ## Requests reach the head -/

/-- A waiting service has room for a request. -/
theorem Executes.fits (h : Executes n.program x n.slot m) (hown : Owns x n) {i len dst cap : ℕ}
    (hi : i < x.len) (hlen : len ≤ n.program.room)
    (ep : (x.st i).endpoints n.endpoint = .receiverWaiting n.slot dst cap) :
    len ≤ cap ∧ validUserBuf dst len = true := by
  have horigin := run_origin x n.endpoint i hi.le
  rw [ep] at horigin
  cases horigin with
  | receiver lt call since =>
    obtain ⟨-, rfl⟩ := h.head hown call
    have hbuf := (run_inv x i hi.le).wf.receiver_buf n.endpoint n.slot dst _ ep
    exact ⟨hlen, validUserBuf_mono hbuf hlen⟩

/-- The request of send `i` has arrived at receive `p` of the service: it was parked and is taken at
once, or the service waits for it and has it when it next runs. -/
def Arrives (x : Run img) (n : ServiceName) (i p len : ℕ) : Prop :=
  (i < p ∧ (x.st (p + 1)).current = n.slot ∧ (x.st (p + 1)).frame.a0 = len) ∨
    (p < i ∧ (∃ dst cap, Parked x n.endpoint (.receiverWaiting n.slot dst cap) p i) ∧
      ∀ q, EndsAt x n.slot i q → (x.st (q + 1)).frame.a0 = len)

/-- Undisturbed, a successful send on the endpoint of the service is a request that the service
takes. -/
theorem request_taken (h : Executes n.program x n.slot m) (hown : Owns x n)
    (hcond : x.EveryStep (Undisturbed img n)) {i q buf len : ℕ} {c : Slot} (hc : c ≠ n.slot)
    (hsend : SendAt x i c n.endpoint buf len) (hend : EndsAt x c i q)
    (hpos : 0 ≤ (x.st (q + 1)).frame.a0) :
    1 ≤ len ∧ ∃ p dst cap, RecvAt x p n.slot n.endpoint dst cap ∧ Meets x n.endpoint i p ∧
      Arrives x n i p len := by
  have hi := hsend.call.lt
  have hcur : (x.st i).current ≠ n.slot := by
    rw [hsend.call.caller]
    exact hc
  obtain ⟨hone, hroom, hwaits⟩ := (hcond i hi).request buf len hsend.call.trap hcur hsend.req
  refine ⟨hone, ?_⟩
  cases (run_move x hi).sendOutcome hsend.call.trap hsend.call.sys with
  | refused endpoints tasks current neg =>
    obtain rfl := hend.at_once (current.trans hsend.call.caller)
    omega
  | @staged e r buf' len' dst cap hst others =>
    obtain ⟨rfl, rfl, rfl⟩ := hsend.req.unique hst.req
    obtain rfl := hwaits r dst cap hst.parked
    have horigin := run_origin x n.endpoint i hi.le
    have hparked : (x.st i).endpoints n.endpoint = .receiverWaiting n.slot dst cap := hst.parked
    rw [hparked] at horigin
    cases horigin with
    | @receiver p _ _ _ lt call since =>
      refine ⟨p, dst, cap, call, ?_, Or.inr ⟨lt, ⟨dst, cap, since⟩, fun q' hend' => ?_⟩⟩
      · exact ⟨c, buf, len, n.slot, dst, cap, hsend, call, Or.inr ⟨lt, since, hst.cleared⟩⟩
      · exact (hst.delivered hi hend').1
  | @dropped e r buf' len' dst cap req parked small cleared pending =>
    obtain ⟨rfl, rfl, rfl⟩ := hsend.req.unique req
    obtain rfl := hwaits r dst cap parked
    exact absurd (h.fits hown hi hroom parked) small
  | @parks e buf' len' req idle parked current kmsg pending =>
    obtain ⟨rfl, rfl, rfl⟩ := hsend.req.unique req
    have hstands : (x.st (i + 1)).endpoints n.endpoint = .senderWaiting c len := by
      have hcaller : (entry x i).current = c := hsend.call.caller
      rw [parked, hcaller]
    obtain ⟨p, r, dst, cap, hip, hpq, hrecv, hpark, htake, -⟩ := hend.taken hstands
    -- another client would have taken it against the condition
    have hr : r = n.slot := by
      by_contra hr
      have hother : (x.st p).current ≠ n.slot := by
        rw [hrecv.call.caller]
        exact hr
      exact hc ((hcond p hrecv.call.lt).answer dst cap hrecv.call.trap hother hrecv.req c len
        (hpark p hip (Nat.le_refl p)))
    subst hr
    refine ⟨p, dst, cap, hrecv, ?_, Or.inl ⟨hip, ?_, htake.result⟩⟩
    · exact ⟨c, buf, len, n.slot, dst, cap, hsend, hrecv, Or.inl ⟨hip, hpark, htake.cleared⟩⟩
    · exact htake.current.trans hrecv.call.caller

/-! ## The receive ends -/

/-- A task that runs at `b` after `a` has run first at some point. -/
theorem exists_back {t : Slot} {a b : ℕ} (hab : a < b) (hb : (x.st b).current = t) :
    ∃ j, a ≤ j ∧ j < b ∧ (x.st (j + 1)).current = t ∧
      ∀ l, a < l → l ≤ j → (x.st l).current ≠ t := by
  classical
  have hex : ∃ l, a < l ∧ (x.st l).current = t := ⟨b, hab, hb⟩
  obtain ⟨hlt, hcur⟩ := Nat.find_spec hex
  obtain ⟨j, hj⟩ : ∃ j, Nat.find hex = j + 1 := Nat.exists_eq_succ_of_ne_zero (by omega)
  have hle : Nat.find hex ≤ b := Nat.find_min' hex ⟨hab, hb⟩
  rw [hj] at hcur hlt hle
  refine ⟨j, by omega, by omega, hcur, fun l hal hlj hl => ?_⟩
  exact Nat.find_min hex (by omega) ⟨hal, hl⟩

/-- The receive that a request arrives at ends with it. -/
theorem Arrives.ends {i p j len : ℕ} (h : Arrives x n i p len) (hend : EndsAt x n.slot p j) :
    (x.st (j + 1)).frame.a0 = len := by
  rcases h with ⟨-, hcur, ha0⟩ | ⟨hpi, ⟨dst, cap, hpark⟩, hnext⟩
  · obtain rfl := hend.at_once hcur
    exact ha0
  · -- the service stands on the endpoint up to `i`, so that its receive ends later
    have hij : i ≤ j := by
      by_contra hlt
      have hw := Core.waiter_of_receiver (hpark (j + 1) (by have := hend.le; omega) (by omega))
      exact absurd hend.back.symm ((run_inv x (j + 1) hend.lt).waiter_ne_current hw)
    exact hnext j ⟨hij, hend.lt, fun l h₁ h₂ => hend.away l (by omega) h₂,
      fun l h₁ h₂ => hend.kept l (by omega) h₂, hend.back⟩

/-- A receive at the head that gets something leads to the handler. -/
theorem goOn_head {s : n.program.State} {f : TrapFrame} {c : Core}
    {a : (n.program.next (.ret s)).Answer} (held : (n.program.next (.ret s)).Held f c a)
    (hpos : 0 < c.frame.a0) : ∃ req, n.program.goOn (.ret s) a = n.program.handle s req := by
  cases a with
  | error code neg =>
    have hcode : c.frame.a0 = code := held
    omega
  | ok bytes fits =>
    cases bytes with
    | nil =>
      have hzero : c.frame.a0 = 0 := held.1
      omega
    | cons b bs => exact ⟨b :: bs, rfl⟩

/-- A service that waits goes on waiting until it gets the CPU back. -/
theorem Executes.waits_kept (h : Executes n.program x n.slot m) {a j : ℕ} (hj : j < x.len)
    {p : UserProg n.program.State} {f : TrapFrame} (ha : m a = .waits p f)
    (haway : ∀ l, a ≤ l → l ≤ j → (x.st l).current ≠ n.slot)
    (hlife : ∀ l, a ≤ l → l < j → ¬ BeginsAt x l n.slot) :
    ∀ l, a ≤ l → l ≤ j → m l = .waits p f := by
  intro l hal
  induction l, hal using Nat.le_induction with
  | base => exact fun _ => ha
  | succ l hal ih =>
    intro hlj
    have hstep := h.step l (by omega)
    rw [ih (by omega)] at hstep
    generalize m (l + 1) = s at hstep
    cases hstep with
    | begins s life => exact absurd life (hlife l hal (by omega))
    | resumes same off back held => exact absurd back (haway (l + 1) (by omega) hlj)
    | waits same off off' => rfl

/-- A receive at the head that ends with a request leads to the handler. -/
theorem HeadAt.handles (h : Executes n.program x n.slot m) {p j : ℕ} (hhead : HeadAt x n m p)
    (hend : EndsAt x n.slot p j) (hlife : ∀ l, p ≤ l → l ≤ j → ¬ BeginsAt x l n.slot)
    (hpos : 0 < (x.st (j + 1)).frame.a0) :
    ∃ s req, m (j + 1) = .here (n.program.handle s req) := by
  obtain ⟨s, hs⟩ := hhead.head
  have hstep := h.step p hhead.call.lt
  rw [hs] at hstep
  rcases Nat.eq_or_lt_of_le hend.le with rfl | hlt
  · -- answered at once
    generalize m (p + 1) = s' at hstep
    cases hstep with
    | begins s life => exact absurd life (hlife p (Nat.le_refl p) (Nat.le_refl p))
    | returns same on ecall asked back held =>
      obtain ⟨req, hreq⟩ := goOn_head held hpos
      exact ⟨s, req, congrArg Stand.here hreq⟩
    | leaves same on ecall asked off => exact absurd hend.back off
    | interrupted same on trap => exact absurd hhead.call.trap trap
    | stays same off => exact absurd hhead.call.caller off
  · -- answered after a wait
    have hoff := hend.away (p + 1) (Nat.lt_succ_self p) hlt
    obtain ⟨f, hwaits⟩ : ∃ f, m (p + 1) = .waits (.ret s) f := by
      generalize m (p + 1) = s' at hstep
      cases hstep with
      | begins s life => exact absurd life (hlife p (Nat.le_refl p) hend.le)
      | returns same on ecall asked back held => exact absurd back hoff
      | leaves same on ecall asked off => exact ⟨_, rfl⟩
      | interrupted same on trap => exact absurd hhead.call.trap trap
      | stays same off => exact absurd hhead.call.caller off
    have hkept := h.waits_kept hend.lt hwaits (fun l h₁ h₂ => hend.away l (by omega) h₂)
      (fun l h₁ h₂ => hlife l (by omega) (by omega)) j (by omega) (Nat.le_refl j)
    have hlast := h.step j hend.lt
    rw [hkept] at hlast
    generalize m (j + 1) = s' at hlast
    cases hlast with
    | begins s life => exact absurd life (hlife j hend.le (Nat.le_refl j))
    | resumes same off back held =>
      obtain ⟨req, hreq⟩ := goOn_head held hpos
      exact ⟨s, req, congrArg Stand.here hreq⟩
    | waits same off off' => exact absurd hend.back off'

/-! ## Counting replies -/

/-- The replies a service still has to make before it is back at its head. -/
def Stand.Owes {σ : Type} (k : ℕ) : Stand σ → Prop
  | .here p => Replies k p
  | .waits (.call _ next) _ => ∀ a, Replies k (next a)
  | .waits (.ret _) _ => False

/-- At step `l` the service makes the call for a reply. -/
def Answers (x : Run img) (n : ServiceName) (m : ℕ → Stand n.program.State) (l : ℕ) : Prop :=
  CallAt x l n.slot .send ∧ ∃ p msg, m l = .here p ∧ n.program.next p = .send 0 msg

theorem isReply_iff {c : Call} : isReply c = true ↔ ∃ msg, c = .send 0 msg := by
  constructor
  · intro h
    unfold isReply at h
    split at h
    · exact ⟨_, rfl⟩
    · cases h
  · rintro ⟨msg, rfl⟩
    rfl

/-- The calls of a service that count are its replies. -/
theorem answers_iff {i : ℕ} {c : Call} {next : c.Answer → UserProg n.program.State} (hi : i < x.len)
    (hm : m i = .here (.call c next)) (on : (x.st i).current = n.slot)
    (ecall : (x.ev i).trap = .ecall) (asked : c.Asked img (entry x i)) :
    Answers x n m i ↔ isReply c = true := by
  rw [isReply_iff]
  constructor
  · rintro ⟨-, p, msg, hp, hnext⟩
    rw [hm] at hp
    cases hp
    exact ⟨msg, hnext⟩
  · rintro ⟨msg, rfl⟩
    exact ⟨⟨hi, on, ecall, asked.1⟩, _, msg, hm, rfl⟩

open Classical in
/-- One step between two receives at the head: the service owes one reply less after it has made
one. -/
theorem Executes.owes_step (h : Executes n.program x n.slot m) {i k : ℕ} (hi : i < x.len)
    (hlife : ¬ BeginsAt x i n.slot) (hhead : ¬ HeadAt x n m i) (howes : (m i).Owes k) :
    ∃ k', (m (i + 1)).Owes k' ∧ k = k' + if Answers x n m i then 1 else 0 := by
  have hstep := h.step i hi
  -- a step without a call of the service
  have hidle : ¬ CallAt x i n.slot .send → (m (i + 1)).Owes k →
      ∃ k', (m (i + 1)).Owes k' ∧ k = k' + if Answers x n m i then 1 else 0 := by
    intro hno hsame
    refine ⟨k, hsame, ?_⟩
    rw [if_neg fun ha => hno ha.1, Nat.add_zero]
  generalize hs : m i = s, hs' : m (i + 1) = s' at hstep howes
  rw [hs'] at hidle
  cases hstep with
  | begins s life => exact absurd life hlife
  | @returns p a same on ecall asked back held =>
    cases p with
    | ret s => exact absurd ⟨⟨hi, on, ecall, asked.1⟩, s, hs⟩ hhead
    | call c next =>
      obtain ⟨k', hk, hnext⟩ := Does.next howes
      refine ⟨k', hnext a, ?_⟩
      rw [hk]
      simp only [answers_iff hi hs on ecall asked]
      cases isReply c <;> rfl
  | @leaves p same on ecall asked off =>
    cases p with
    | ret s => exact absurd ⟨⟨hi, on, ecall, asked.1⟩, s, hs⟩ hhead
    | call c next =>
      obtain ⟨k', hk, hnext⟩ := Does.next howes
      refine ⟨k', hnext, ?_⟩
      rw [hk]
      simp only [answers_iff hi hs on ecall asked]
      cases isReply c <;> rfl
  | interrupted same on trap => exact hidle (fun hcall => trap hcall.trap) howes
  | @resumes p f a same off back held =>
    cases p with
    | ret s => exact howes.elim
    | call c next => exact hidle (fun hcall => off hcall.caller) (howes a)
  | waits same off off' => exact hidle (fun hcall => off hcall.caller) howes
  | stays same off => exact hidle (fun hcall => off hcall.caller) howes

/-- From the handler on until the next receive at the head: no reply yet and one owed, or the one
reply made and none owed. -/
theorem Executes.owes_run (h : Executes n.program x n.slot m) {a b : ℕ} (hb : b ≤ x.len)
    (ha : (m a).Owes 1) (hlife : ∀ l, a ≤ l → l < b → ¬ BeginsAt x l n.slot)
    (hhead : ∀ l, a ≤ l → l < b → ¬ HeadAt x n m l) :
    ∀ i, a ≤ i → i ≤ b →
      ((m i).Owes 1 ∧ ∀ l, a ≤ l → l < i → ¬ Answers x n m l) ∨
        ((m i).Owes 0 ∧ ∃! l, a ≤ l ∧ l < i ∧ Answers x n m l) := by
  intro i hai
  induction i, hai using Nat.le_induction with
  | base => exact fun _ => Or.inl ⟨ha, fun l h₁ h₂ => absurd h₂ (Nat.not_lt.mpr h₁)⟩
  | succ i hai ih =>
    intro hib
    have hstep : ∀ {k}, (m i).Owes k → _ := fun {k} howes =>
      @Executes.owes_step _ _ _ _ h i k (by omega) (hlife i hai (by omega))
        (hhead i hai (by omega)) howes
    rcases ih (by omega) with ⟨howes, hnone⟩ | ⟨howes, l, ⟨hal, hli, hans⟩, huniq⟩
    · obtain ⟨k', howes', hk⟩ := hstep howes
      by_cases hans : Answers x n m i
      · rw [if_pos hans] at hk
        obtain rfl : k' = 0 := by omega
        refine Or.inr ⟨howes', i, ⟨hai, Nat.lt_succ_self i, hans⟩, ?_⟩
        rintro l ⟨hal, hli, hl⟩
        by_contra hne
        exact hnone l hal (by omega) hl
      · rw [if_neg hans] at hk
        obtain rfl : k' = 1 := by omega
        refine Or.inl ⟨howes', fun l hal hli hl => ?_⟩
        rcases Nat.lt_succ_iff_lt_or_eq.mp hli with hlt | rfl
        · exact hnone l hal hlt hl
        · exact hans hl
    · obtain ⟨k', howes', hk⟩ := hstep howes
      have hno : ¬ Answers x n m i := by
        intro hi
        rw [if_pos hi] at hk
        omega
      rw [if_neg hno] at hk
      obtain rfl : k' = 0 := by omega
      refine Or.inr ⟨howes', l, ⟨hal, by omega, hans⟩, ?_⟩
      rintro l' ⟨hal', hli', hl'⟩
      rcases Nat.lt_succ_iff_lt_or_eq.mp hli' with hlt | rfl
      · exact huniq l' ⟨hal', hlt, hl'⟩
      · exact absurd hl' hno

/-- Undisturbed, the kernel takes the replies. -/
theorem replyAt_iff (h : Executes n.program x n.slot m) (hown : Owns x n)
    (hcond : x.EveryStep (Undisturbed img n)) {l : ℕ} :
    ReplyAt x n m l ↔ Answers x n m l := by
  constructor
  · rintro ⟨⟨p, msg, buf, hp, hnext, hsend, -⟩, -⟩
    exact ⟨hsend.call, p, msg, hp, hnext⟩
  · rintro ⟨hcall, p, msg, hp, hnext⟩
    obtain ⟨p', hp', hasked⟩ := h.asked hcall (Or.inl rfl)
    obtain rfl : p = p' := Stand.here.inj (hp.symm.trans hp')
    have hlawful := h.lawful l hcall.lt.le
    rw [hp] at hlawful
    cases p with
    | ret s => cases hnext
    | call c k =>
      obtain rfl : c = .send 0 msg := hnext
      obtain ⟨hsys, harg, hlen, hseen, hwin⟩ := hasked
      have hcur : (entry x l).current = n.slot := hcall.caller
      have hreq : SendReq img (entry x l) n.endpoint ((entry x l).frame.arg 1) msg.length := by
        refine ⟨hsys, ?_, rfl, hlen, hlawful.1, hwin⟩
        rw [harg, hcur]
        exact hown.send l hcall.lt.le hcall.caller
      exact ⟨⟨_, msg, _, hp, rfl, ⟨hcall, hreq⟩, hseen⟩,
        (hcond l hcall.lt).reply _ _ hcall.trap hcall.caller hreq⟩

/-! ## Whole runs -/

theorem run_repliesOnce (h : Executes n.program x n.slot m) (hown : Owns x n)
    (hcond : x.EveryStep (Undisturbed img n)) : RepliesOnce x n m := by
  intro i q c buf len hc hsend hend hpos
  obtain ⟨hone, p, dst, cap, hrecv, hmeets, harrives⟩ :=
    request_taken h hown hcond hc hsend hend hpos
  obtain ⟨hhead, -⟩ := h.head hown hrecv
  refine ⟨p, hhead, hmeets, fun p' hpp' hhead' hbetween hlife => ?_⟩
  -- the receive ends at `j`, and the handler starts
  obtain ⟨j, hpj, hjp', hback, haway⟩ := exists_back hpp' hhead'.call.caller
  have hjlen : j < x.len := hjp'.trans hhead'.call.lt
  have hends : EndsAt x n.slot p j :=
    ⟨hpj, hjlen, haway, fun l h₁ h₂ hr => hlife l (by omega) (by omega) (Or.inr hr), hback⟩
  have hlen : (x.st (j + 1)).frame.a0 = len := harrives.ends hends
  obtain ⟨s, req, hhandle⟩ := hhead.handles h hends
    (fun l h₁ h₂ => hlife l h₁ (by omega)) (by omega)
  -- from there on one reply is owed, and none at the next receive
  have hstart : (m (j + 1)).Owes 1 := by
    rw [hhandle]
    exact n.handle_replies s req
  have hrun := h.owes_run hhead'.call.lt.le hstart (fun l h₁ h₂ => hlife l (by omega) h₂)
    (fun l h₁ h₂ => hbetween l (by omega) h₂) p' (by omega) (Nat.le_refl p')
  obtain ⟨s', hs'⟩ := hhead'.head
  rw [hs'] at hrun
  rcases hrun with ⟨howes, -⟩ | ⟨-, l, ⟨hjl, hlp', hans⟩, huniq⟩
  · have hzero : 1 = 0 := howes.makes
    omega
  · refine ⟨l, ⟨by omega, hlp', (replyAt_iff h hown hcond).mpr hans⟩, ?_⟩
    rintro l' ⟨hpl', hl'p', hreply⟩
    have hans' := (replyAt_iff h hown hcond).mp hreply
    have hjl' : j + 1 ≤ l' := by
      by_contra hlt
      exact haway l' hpl' (by omega) hans'.1.caller
    exact huniq l' ⟨hjl', hl'p', hans'⟩

/-! ## Runs of the OS -/

/-- Boot grants a service its endpoint as its first capability, with the right to send, and no other
capability for it. -/
theorem ServiceName.granted (n : ServiceName) : ∃ g cap rest,
    serviceGrants[n.slot.val - 1]? = some g ∧ g.2.2 = cap :: rest ∧
      cap.otype = .endpoint ∧ cap.objectId = n.endpoint.val ∧ cap.grants rightSend = true ∧
      ∀ c ∈ rest, c.otype = .endpoint → c.objectId ≠ n.endpoint.val := by
  cases n with
  | storage => exact ⟨_, _, _, rfl, rfl, rfl, rfl, by decide, by decide⟩
  | fs => exact ⟨_, _, _, rfl, rfl, rfl, rfl, by decide, by decide⟩
  | appLoader => exact ⟨_, _, _, rfl, rfl, rfl, rfl, by decide, by decide⟩
  | net => exact ⟨_, _, _, rfl, rfl, rfl, rfl, by decide, by decide⟩

theorem bootCaps_service {caps : CapTable} (h : BootCaps img n.slot caps) :
    ∃ g, serviceGrants[n.slot.val - 1]? = some g ∧ caps = capTable g.2.2 := by
  rcases h with ⟨hinit, -⟩ | ⟨d, hd, hslot, rfl⟩
  · exact absurd hinit (by cases n <;> decide)
  · obtain ⟨⟨g, i⟩, hg, rfl⟩ := List.mem_map.mp hd
    have hi : i + 1 = n.slot.val := hslot
    refine ⟨g, ?_, rfl⟩
    rw [← hi, Nat.add_sub_cancel]
    exact List.mem_zipIdx_iff_getElem?.mp hg

theorem osRun_owns (x : OsRun img) (n : ServiceName) :
    Owns (x.weaken fun _ => OsBooted.booted) n := by
  have hcaps : ∀ i, i ≤ x.len → (x.st i).current = n.slot → ∃ cap rest,
      ((x.st i).tasks n.slot).caps = capTable (cap :: rest) ∧ cap.otype = .endpoint ∧
        cap.objectId = n.endpoint.val ∧ cap.grants rightSend = true ∧
        ∀ c ∈ rest, c.otype = .endpoint → c.objectId ≠ n.endpoint.val := by
    intro i hi hcur
    have hos := osRun_osInv x i hi
    have hused : ((x.st i).tasks n.slot).state ≠ .empty := by
      rw [(hos.inv.wf.running n.slot).mpr (congrArg some hcur)]
      simp
    obtain ⟨g, hg, htable⟩ := bootCaps_service (hos.caps n.slot hused)
    obtain ⟨g', cap, rest, hg', hlist, hgranted⟩ := n.granted
    obtain rfl : g = g' := Option.some.inj (hg.symm.trans hg')
    exact ⟨cap, rest, by rw [htable, hlist], hgranted⟩
  constructor
  · intro i hi hcur
    obtain ⟨cap, rest, htable, hep, hid, hsend, -⟩ := hcaps i hi hcur
    have hfirst : ((x.st i).tasks n.slot).caps ⟨0, by decide⟩ = some cap := by
      rw [htable]
      rfl
    show (x.st i).capCheck n.slot 0 rightSend = .ok n.endpoint.val
    simp only [Core.capCheck, hfirst, hep, hsend, hid]
    rfl
  · intro i idx hi hcur hres
    obtain ⟨cap, rest, htable, -, -, -, hrest⟩ := hcaps i hi hcur
    obtain ⟨hlt, c, hc, hep, hid, -⟩ := capCheck_cap hres
    cases idx with
    | zero => rfl
    | succ j =>
      have hc' : capTable (cap :: rest) ⟨j + 1, hlt⟩ = some c := (congrFun htable _).symm.trans hc
      have hmem : c ∈ rest := List.mem_of_getElem? (show rest[j]? = some c from hc')
      exact absurd hid (hrest c hmem hep)

/-- In every run of the OS in which no trap disturbs the exchange, every request that reports
success gets exactly one reply before the service asks for its next request. -/
theorem osRun_repliesOnce (x : OsRun img)
    (h : Executes n.program (x.weaken fun _ => OsBooted.booted) n.slot m)
    (hcond : (x.weaken fun _ => OsBooted.booted).EveryStep (Undisturbed img n)) :
    RepliesOnce (x.weaken fun _ => OsBooted.booted) n m :=
  run_repliesOnce h (osRun_owns x n) hcond

/-! ## Runs of `storage_service` -/

theorem undisturbed_of {k : Kernel} {ev : Event}
    (hsend : (k.toCore.enter ev).frame.sys = some .send → k.endpoints n.endpoint = .idle ∧
      (k.current ≠ n.slot → 1 ≤ (k.toCore.enter ev).frame.arg 2 ∧
        (k.toCore.enter ev).frame.arg 2 ≤ n.program.room))
    (hrecv : (k.toCore.enter ev).frame.sys = some .recv → k.current ≠ n.slot →
      (k.endpoints n.endpoint).waiter = some n.slot) : Undisturbed img n k ev where
  request buf len _ hcur req := by
    obtain ⟨hidle, hlen⟩ := hsend req.sys
    obtain ⟨hpos, hroom⟩ := hlen hcur
    rw [req.len_eq] at hpos hroom
    refine ⟨hpos, hroom, ?_⟩
    intro r dst cap hep
    rw [hidle] at hep
    cases hep
  answer dst cap _ hcur req s len hep := by
    have hwaiter := hrecv req.sys hcur
    rw [hep] at hwaiter
    exact Option.some.inj hwaiter
  reply buf len _ _ req s len' hep := by
    rw [(hsend req.sys).1] at hep
    cases hep

/-- `init_service` starts `storage_service`, `shell_service` and `console_service` and exits; the
shell sends the request `A`, `storage_service` answers it, the shell takes the answer and exits. -/
def servedRequest : List Event :=
  [sampleCall 8 10 0 0 0, sampleCall 8 3 0 0 0, sampleCall 8 2 0 0 0, sampleCall 2 0 0 0 0,
    sampleCall 3 6 0x200000 1 65, sampleCall 4 0 0x200010 64 0,
    { sampleCall 3 0 0x200000 13 0 with
      page := fun a => (umsg "ERR malformed").getD (a - 0x200000) 0 },
    sampleCall 4 6 0x200010 64 0, sampleCall 2 0 0 0 0, sampleCall 4 0 0x200010 64 0]

theorem survives_servedRequest : survives servedRequest = true := rfl

/-- Where `storage_service` stands in this run. -/
def servedStand : ℕ → Stand Unit
  | 0 | 1 | 2 | 3 | 4 | 5 | 9 => .here (.ret ())
  | 6 => .here (storageHandle [65])
  | 7 | 8 => .waits (storageHandle [65])
      (entry (sampleRun servedRequest survives_servedRequest) 6).frame
  | _ => .waits (.ret ()) (entry (sampleRun servedRequest survives_servedRequest) 9).frame

theorem storage_begins : Begins (sampleBoot.serviceTable.getD [])
    (sampleBoot.toCore.enter (sampleCall 8 10 0 0 0)) .ecall ServiceName.storage.slot :=
  .inl ⟨rfl, rfl, rfl, ⟨_, rfl, rfl⟩, rfl⟩

/-- No life begins in slot `t` at a later step of the run. -/
theorem sampleRun_same {es : List Event} {t : Slot} (h : survives es = true)
    (hes : ∀ i < es.length, 0 < i → startsSlot ((sampleState es i).serviceTable.getD [])
      ((sampleState es i).toCore.enter (es.getD i sampleTick)) t = false) {i : ℕ} (hpos : 0 < i)
    (hi : i < es.length) : ¬ BeginsAt (sampleRun es h) i t :=
  not_begins (hes i hi hpos)

theorem servedRequest_executes : Executes ServiceName.storage.program
    (sampleRun servedRequest survives_servedRequest) ServiceName.storage.slot servedStand := by
  have hsame {i : ℕ} (hpos : 0 < i) (hi : i < 10) :=
    sampleRun_same (t := ServiceName.storage.slot) survives_servedRequest (by decide +kernel)
      hpos hi
  refine ⟨rfl, ?_⟩
  intro i hi
  match i, hi with
  | 0, _ => exact .begins _ storage_begins
  | 1, hi => exact .stays (hsame (by decide) hi) (by decide)
  | 2, hi => exact .stays (hsame (by decide) hi) (by decide)
  | 3, hi => exact .stays (hsame (by decide) hi) (by decide)
  | 4, hi => exact .stays (hsame (by decide) hi) (by decide)
  | 5, hi =>
    exact @Proceeds.returns _ ServiceName.storage.program _ _ _ (.ret ()) (.ok [65] (by decide))
      (hsame (by decide) hi) rfl rfl ⟨rfl, rfl, rfl, rfl⟩ rfl ⟨rfl, rfl⟩
  | 6, hi => exact .leaves (hsame (by decide) hi) rfl rfl ⟨rfl, rfl, rfl, rfl, rfl⟩ (by decide)
  | 7, hi => exact .waits (hsame (by decide) hi) (by decide) (by decide)
  | 8, hi =>
    exact @Proceeds.resumes _ ServiceName.storage.program _ _ _ (storageHandle [65]) _ (13 : Int)
      (hsame (by decide) hi) (by decide) rfl rfl
  | 9, hi => exact .leaves (hsame (by decide) hi) rfl rfl ⟨rfl, rfl, rfl, rfl⟩ (by decide)

theorem servedRequest_repliesOnce :
    Executes ServiceName.storage.program (sampleRun servedRequest survives_servedRequest)
        ServiceName.storage.slot servedStand ∧
      (sampleRun servedRequest survives_servedRequest).EveryStep
        (Undisturbed sampleImage .storage) ∧
      SendAt (sampleRun servedRequest survives_servedRequest) 4 4 ServiceName.storage.endpoint
        0x200000 1 ∧
      RepliesOnce (sampleRun servedRequest survives_servedRequest) .storage servedStand := by
  have hquiet : ∀ i < 10,
      (((sampleState servedRequest i).toCore.enter (servedRequest.getD i sampleTick)).frame.sys =
          some .send →
        (sampleState servedRequest i).endpoints ServiceName.storage.endpoint = .idle ∧
          ((sampleState servedRequest i).current ≠ ServiceName.storage.slot →
            1 ≤ ((sampleState servedRequest i).toCore.enter
              (servedRequest.getD i sampleTick)).frame.arg 2 ∧
            ((sampleState servedRequest i).toCore.enter
              (servedRequest.getD i sampleTick)).frame.arg 2 ≤ 64)) ∧
      (((sampleState servedRequest i).toCore.enter (servedRequest.getD i sampleTick)).frame.sys =
          some .recv →
        (sampleState servedRequest i).current ≠ ServiceName.storage.slot →
        ((sampleState servedRequest i).endpoints ServiceName.storage.endpoint).waiter =
          some ServiceName.storage.slot) := by
    decide +kernel
  have hcond : (sampleRun servedRequest survives_servedRequest).EveryStep
      (Undisturbed sampleImage .storage) :=
    fun i hi => undisturbed_of (hquiet i hi).1 (hquiet i hi).2
  exact ⟨servedRequest_executes, hcond,
    ⟨⟨by decide, rfl, rfl, rfl⟩, ⟨rfl, rfl, rfl, rfl, by decide, rfl⟩⟩,
    osRun_repliesOnce (sampleOsRun servedRequest survives_servedRequest) servedRequest_executes
      hcond⟩

/-- The shell sends an empty request; `storage_service` takes it and asks for the next one. -/
def emptyRequest : List Event :=
  [sampleCall 8 10 0 0 0, sampleCall 8 3 0 0 0, sampleCall 2 0 0 0 0, sampleCall 3 6 0x200000 0 0,
    sampleCall 4 0 0x200010 64 0, sampleCall 4 0 0x200010 64 0]

theorem survives_emptyRequest : survives emptyRequest = true := rfl

/-- Where `storage_service` stands in this run. -/
def emptyStand (i : ℕ) : Stand Unit :=
  if i ≤ 5 then .here (.ret ())
  else .waits (.ret ()) (entry (sampleRun emptyRequest survives_emptyRequest) 5).frame

theorem emptyRequest_executes : Executes ServiceName.storage.program
    (sampleRun emptyRequest survives_emptyRequest) ServiceName.storage.slot emptyStand := by
  have hsame {i : ℕ} (hpos : 0 < i) (hi : i < 6) :=
    sampleRun_same (t := ServiceName.storage.slot) survives_emptyRequest (by decide +kernel) hpos hi
  refine ⟨rfl, ?_⟩
  intro i hi
  match i, hi with
  | 0, _ => exact .begins _ storage_begins
  | 1, hi => exact .stays (hsame (by decide) hi) (by decide)
  | 2, hi => exact .stays (hsame (by decide) hi) (by decide)
  | 3, hi => exact .stays (hsame (by decide) hi) (by decide)
  | 4, hi =>
    exact @Proceeds.returns _ ServiceName.storage.program _ _ _ (.ret ()) (.ok [] (by decide))
      (hsame (by decide) hi) rfl rfl ⟨rfl, rfl, rfl, rfl⟩ rfl ⟨rfl, rfl⟩
  | 5, hi => exact .leaves (hsame (by decide) hi) rfl rfl ⟨rfl, rfl, rfl, rfl⟩ (by decide)

/-- The shell is told that its empty request was sent, and gets no reply. -/
theorem emptyRequest_unanswered : ¬ ∀ (x : OsRun sampleImage) (m : ℕ → Stand Unit),
    Executes ServiceName.storage.program (x.weaken fun _ => OsBooted.booted)
      ServiceName.storage.slot m →
    RepliesOnce (x.weaken fun _ => OsBooted.booted) .storage m := by
  intro h
  set x := sampleRun emptyRequest survives_emptyRequest with hx
  have hreplies : RepliesOnce x .storage emptyStand :=
    h (sampleOsRun emptyRequest survives_emptyRequest) emptyStand emptyRequest_executes
  have hsend : SendAt x 3 4 ServiceName.storage.endpoint 0x200000 0 :=
    ⟨⟨by decide, rfl, rfl, rfl⟩, ⟨rfl, rfl, rfl, rfl, by decide, rfl⟩⟩
  have haway : ∀ m, 3 < m → m ≤ 5 → (x.st m).current ≠ 4 := by
    intro m h₁ h₂
    obtain rfl | rfl : m = 4 ∨ m = 5 := by omega
    · show ServiceName.storage.slot ≠ 4
      decide
    · show ServiceName.storage.slot ≠ 4
      decide
  have hkept : ∀ m, 3 < m → m ≤ 5 →
      ¬ Renews ((x.st m).serviceTable.getD []) (entry x m) (x.ev m).trap 4 := by
    intro m h₁ h₂ hrenews
    obtain rfl | rfl : m = 4 ∨ m = 5 := by omega
    · exact not_begins rfl (.inr hrenews)
    · exact not_begins rfl (.inr hrenews)
  have hends : EndsAt x 4 3 5 := ⟨by decide, by decide, haway, hkept, rfl⟩
  obtain ⟨p, hhead, ⟨s, buf, len, r, dst, cap, -, -, hmeets⟩, hnext⟩ :=
    hreplies 3 5 4 _ _ (by decide) hsend hends (by decide)
  have hlt : p < 6 := hhead.call.lt
  have hserves : ∀ i < 4, (sampleState emptyRequest i).current ≠ ServiceName.storage.slot := by
    decide
  have hp : 4 ≤ p := by
    by_contra hlow
    exact hserves p (by omega) hhead.call.caller
  rcases hmeets with ⟨-, hparked, -⟩ | ⟨hbefore, -⟩
  · obtain rfl | rfl : p = 4 ∨ p = 5 := by omega
    · -- the next request is asked for at once
      have hhead' : HeadAt x .storage emptyStand 5 := ⟨⟨by decide, rfl, rfl, rfl⟩, ⟨(), rfl⟩⟩
      obtain ⟨l, ⟨h₁, h₂, -⟩, -⟩ := hnext 5 (by decide) hhead' (fun l h₁ h₂ => by omega)
        (fun l h₁ h₂ => by
          obtain rfl : l = 4 := by omega
          exact not_begins rfl)
      omega
    · have hidle : (x.st 5).endpoints ServiceName.storage.endpoint = .idle := rfl
      have hsender := hparked 5 (by decide) (by decide)
      rw [hidle] at hsender
      cases hsender
  · omega

end AxiomRT.User
