import AntRelay.Runtime.Replies
import Mathlib.Data.List.Perm.Basic

namespace AntRelay.Runtime
open AntRelay.Base AntRelay.Format

variable {crc : Checksum}

/-- A published reply that can still answer a request in a packet's name. -/
def canAnswer (packet : Nat) (entry : Option Nat × Delivery crc) : Bool :=
  entry.1 == some packet && entry.2.answers.isSome

/-- A message not decoded yet that will publish a reply in its packet's name. -/
def willRelay (packet : Nat) (entry : Nat × Message crc) : Bool :=
  entry.1 == packet && (AntDecode.handle entry.2).isSome

def replies (packet : Nat) (s : Link crc) (seen : List (LinkSeen crc)) : Nat :=
  seen.countP (LinkSeen.answersFrom packet) + s.inbox.countP (canAnswer packet) +
    s.downMessages.countP (willRelay packet)

def OneEach (s : Link crc) (seen : List (LinkSeen crc)) : Prop :=
  ∀ packet, replies packet s seen ≤ if packet < s.packets then 1 else 0

theorem countP_eraseIdx {α : Type} (p : α → Bool) {l : List α} {i : Nat} {x : α}
    (h : l[i]? = some x) : l.countP p = (l.eraseIdx i).countP p + if p x then 1 else 0 := by
  obtain ⟨hi, hx⟩ := List.getElem?_eq_some_iff.mp h
  rw [← (List.getElem_cons_eraseIdx_perm hi).countP_eq p, List.countP_cons, hx]

theorem ack_or_relay (msg : Message crc) :
    (if (Delivery.ack msg).answers.isSome then 1 else 0) +
      (if (AntDecode.handle msg).isSome then 1 else 0) ≤ 1 := by
  unfold AntDecode.handle Delivery.answers
  by_cases hrelay : msg.val.header.header.ty.event = .csRelay ∧
      msg.val.header.header.ty.disposition = .ack
  · simp only [hrelay, and_self, ↓reduceIte, Option.isSome_none, Bool.false_eq_true, Nat.zero_add]
    split <;> simp
  · simp only [hrelay, ↓reduceIte, Option.isSome_none, Bool.false_eq_true, Nat.add_zero]
    split <;> simp

theorem canAnswer_received (s : Link crc) (msg : Message crc) (packet : Nat) :
    (s.inbox ++ if Serial.issuesAck msg then
        [(some s.packets, Delivery.ack msg)] else []).countP (canAnswer packet) ≤
      s.inbox.countP (canAnswer packet) +
        if s.packets = packet then if (Delivery.ack msg).answers.isSome then 1 else 0 else 0 := by
  rw [List.countP_append]
  split
  · by_cases hsame : s.packets = packet <;> simp [canAnswer, hsame, List.countP_singleton]
  · simp

theorem willRelay_received (s : Link crc) (msg : Message crc) (packet : Nat) :
    (s.downMessages ++ [(s.packets, msg)]).countP (willRelay packet) =
      s.downMessages.countP (willRelay packet) +
        if s.packets = packet then if (AntDecode.handle msg).isSome then 1 else 0 else 0 := by
  rw [List.countP_append]
  by_cases hsame : s.packets = packet <;> simp [willRelay, hsame, List.countP_singleton]

theorem canAnswer_decoded (s : Link crc) (origin : Nat) (msg : Message crc) (packet : Nat) :
    (s.inbox ++ ((AntDecode.handle msg).map fun pkt =>
        (some origin, Delivery.ant pkt)).toList).countP (canAnswer packet) ≤
      s.inbox.countP (canAnswer packet) + if willRelay packet (origin, msg) then 1 else 0 := by
  rw [List.countP_append]
  cases hdecoded : AntDecode.handle msg with
  | none => simp
  | some pkt =>
      by_cases hsame : origin = packet
      · simp [willRelay, hsame, hdecoded, List.countP_singleton]
        split <;> omega
      · simp [canAnswer, hsame]

theorem answersFrom_answered (origin : Option Nat) {delivery : Delivery crc} {id : UniqueId}
    (hanswers : delivery.answers = some id) (tx : Sender) (packet : Nat) :
    [LinkSeen.handled origin delivery, .answered origin tx delivery.response].countP
        (LinkSeen.answersFrom packet) =
      if canAnswer packet (origin, delivery) then 1 else 0 := by
  cases origin with
  | none => simp [LinkSeen.answersFrom, canAnswer]
  | some packet' => simp [LinkSeen.answersFrom, canAnswer, hanswers, List.countP_cons]

theorem oneEach_init : OneEach (Link.machine crc).init [] := by
  intro packet
  simp [replies, Link.machine, Link.default]

theorem OneEach.moved {s s' : Link crc} {a : LinkAction crc} {seen shown : List (LinkSeen crc)}
    (h : OneEach s seen) (hmoved : LinkMoved s a s' shown) : OneEach s' (seen ++ shown) := by
  intro packet
  have hbefore := h packet
  unfold replies at hbefore ⊢
  cases hmoved with
  | requested => simpa [LinkSeen.answersFrom] using hbefore
  | timedOut => simpa using hbefore
  | collected => simpa using hbefore
  | refused =>
      simp only [List.append_nil]
      split at hbefore <;> split <;> omega
  | received hpkt =>
      rename_i pkt msg
      have hone := ack_or_relay msg
      have hinbox := canAnswer_received s msg packet
      have hdown := willRelay_received s msg packet
      rw [List.append_nil, hdown]
      generalize (s.inbox ++ if Serial.issuesAck msg then _ else []).countP (canAnswer packet) =
        waiting at hinbox ⊢
      by_cases hsame : s.packets = packet
      · simp only [hsame, ↓reduceIte, Nat.lt_irrefl] at hinbox hbefore ⊢
        simp only [Nat.lt_add_one, ↓reduceIte]
        omega
      · simp only [hsame, ↓reduceIte] at hinbox hbefore ⊢
        split at hbefore <;> split <;> omega
  | decoded hindex =>
      rename_i index origin msg
      have hcount := countP_eraseIdx (willRelay packet) hindex
      have hinbox := canAnswer_decoded s origin msg packet
      rw [List.append_nil]
      simp only [] at hbefore ⊢
      omega
  | published delivery => simpa [canAnswer] using hbefore
  | ignored hindex hnone =>
      rename_i index origin delivery
      have hcount := countP_eraseIdx (canAnswer packet) hindex
      simp only [List.countP_append, List.countP_singleton, LinkSeen.answersFrom,
        Bool.false_eq_true, ↓reduceIte] at hcount ⊢
      omega
  | answered hindex hanswers hlookup =>
      rename_i index origin delivery id tx
      have hcount := countP_eraseIdx (canAnswer packet) hindex
      have hshown := answersFrom_answered origin hanswers tx packet
      rw [List.countP_append, hshown]
      simp only [] at hbefore ⊢
      omega

namespace LinkMoved

variable {s s' : Link crc} {index : Nat} {shown : List (LinkSeen crc)} {origin : Option Nat}
  {delivery : Delivery crc}

theorem delivered (h : LinkMoved s (.deliver index) s' shown)
    (hindex : s.inbox[index]? = some (origin, delivery)) {id : UniqueId} {tx : Sender}
    (hanswers : delivery.answers = some id)
    (hlookup : s.commander.requests.lookup id = some tx) :
    shown = [.handled origin delivery, .answered origin tx delivery.response] ∧
      s'.commander.requests = s.commander.requests.erase id := by
  cases h with
  | ignored hindex' hnone =>
      rw [hindex] at hindex'
      cases hindex'
      rw [hnone id hanswers] at hlookup
      cases hlookup
  | answered hindex' hanswers' hlookup' =>
      rw [hindex] at hindex'
      cases hindex'
      rw [hanswers] at hanswers'
      cases hanswers'
      rw [hlookup] at hlookup'
      cases hlookup'
      exact ⟨rfl, rfl⟩

theorem undelivered (h : LinkMoved s (.deliver index) s' shown)
    (hindex : s.inbox[index]? = some (origin, delivery))
    (hnone : ∀ id, delivery.answers = some id → ∀ tx,
      s.commander.requests.lookup id ≠ some tx) :
    shown = [.handled origin delivery] ∧ s'.commander = s.commander ∧
      s'.receivers = s.receivers := by
  cases h with
  | ignored hindex' =>
      rw [hindex] at hindex'
      cases hindex'
      exact ⟨rfl, rfl, rfl⟩
  | answered hindex' hanswers hlookup =>
      rw [hindex] at hindex'
      cases hindex'
      exact absurd hlookup (hnone _ hanswers _)

end LinkMoved

/-- What replies do in a run of the steps `visits` with the history `seen`. -/
structure AnswersRequests (visits : List (Visit (Link crc) (LinkAction crc) (LinkSeen crc)))
    (seen : List (LinkSeen crc)) : Prop where
  -- No request is answered twice.
  once : ∀ tx, seen.countP (LinkSeen.answersSender tx) ≤ 1
  -- An answer names the request, which was made before the reply was handled.
  matched : Historically RepliesTo seen
  -- A reply to an outstanding request answers it and removes its entry only.
  answered : ∀ visit ∈ visits, ∀ index origin delivery id tx,
    visit.action = .deliver index → visit.state.inbox[index]? = some (origin, delivery) →
    delivery.answers = some id → Outstanding visit.seen tx id →
    visit.state.commander.requests.lookup id = some tx ∧
      ∃ s', visit.state.next visit.action =
          some (s', [.handled origin delivery, .answered origin tx delivery.response]) ∧
        s'.commander.requests = visit.state.commander.requests.erase id
  -- Any other reply changes nothing.
  ignored : ∀ visit ∈ visits, ∀ index origin delivery,
    visit.action = .deliver index → visit.state.inbox[index]? = some (origin, delivery) →
    (∀ id, delivery.answers = some id → ∀ tx, ¬ Outstanding visit.seen tx id) →
    ∃ s', visit.state.next visit.action = some (s', [.handled origin delivery]) ∧
      s'.commander = visit.state.commander ∧ s'.receivers = visit.state.receivers
  -- No packet completes two requests.
  onePacket : ∀ packet, seen.countP (LinkSeen.answersFrom packet) ≤ 1

/-- As long as no request is made under the id of an outstanding one, replies
reach the request they answer, once. -/
theorem replies_answer_requests {visits : List (Visit (Link crc) (LinkAction crc) (LinkSeen crc))}
    {s : Link crc} {seen : List (LinkSeen crc)} (hrun : (Link.machine crc).Run visits s seen)
    (hallowed : ∀ visit ∈ visits, ¬ Collides visit) : AnswersRequests visits seen := by
  have hboth := hrun.invariant (fun s seen => Kept s seen ∧ OneEach s seen)
    (fun visit => ¬ Collides visit) ⟨kept_init, oneEach_init⟩
    (fun h hvisit hnext =>
      have hmoved := linkMoved_of_next h.1 hvisit hnext
      ⟨h.1.moved hvisit hmoved, h.2.moved hmoved⟩) hallowed
  have hmoved : ∀ visit ∈ visits, ∃ s' shown, visit.state.next visit.action = some (s', shown) ∧
      LinkMoved visit.state visit.action s' shown := by
    intro visit hvisit
    obtain ⟨s', shown, hnext, _⟩ :=
      hrun.after (fun _ _ => True) trivial (fun _ _ => trivial) visit hvisit
    exact ⟨s', shown, hnext,
      linkMoved_of_next (hboth.2 visit hvisit).1 (hallowed visit hvisit) hnext⟩
  refine ⟨hboth.1.1.once, hboth.1.1.matched, ?_, ?_, ?_⟩
  · intro visit hvisit index origin delivery id tx haction hindex hanswers hopen
    have hlookup := ((hboth.2 visit hvisit).1.table id tx).mpr hopen
    obtain ⟨s', shown, hnext, hstep⟩ := hmoved visit hvisit
    rw [haction] at hstep
    obtain ⟨rfl, herased⟩ := hstep.delivered hindex hanswers hlookup
    exact ⟨hlookup, s', hnext, herased⟩
  · intro visit hvisit index origin delivery haction hindex hclosed
    obtain ⟨s', shown, hnext, hstep⟩ := hmoved visit hvisit
    rw [haction] at hstep
    have hnone (id : UniqueId) (hanswers : delivery.answers = some id) (tx : Sender) :
        visit.state.commander.requests.lookup id ≠ some tx := by
      intro hlookup
      exact hclosed id hanswers tx (((hboth.2 visit hvisit).1.table id tx).mp hlookup)
    obtain ⟨rfl, hcommander, hreceivers⟩ := hstep.undelivered hindex hnone
    exact ⟨s', hnext, hcommander, hreceivers⟩
  · intro packet
    have hreplies := hboth.1.2 packet
    unfold replies at hreplies
    split at hreplies <;> omega

section Ping

def ping : Message (StandardCRC crc8Smbus) :=
  command _ ⟨⟨0⟩, 7⟩ .centralStation .csPing

def pong : Message (StandardCRC crc8Smbus) :=
  ⟨{ header := {
       header := { Header.command ⟨⟨0⟩, 1⟩ .frontend .csPing with
         ty := { disposition := .ack, invalid := false, event := .csPing } }
       payload := .info ⟨ping.val.header.header, 0⟩ }
     payload := ⟨[]⟩ }⟩

theorem replies_answer_requests_ping : ∃ visits s seen,
    (Link.machine (StandardCRC crc8Smbus)).Run visits s seen ∧
      seen.countP (LinkSeen.answersSender 0) = 1 ∧ AnswersRequests visits seen := by
  have hasked := Machine.Run.start.step
    (show (Link.machine (StandardCRC crc8Smbus)).next Link.default (.request ping true) =
      some (_, _) from rfl)
  have harrived := hasked.step (a := .downPacket (wire pong)) (by
    simp only [Link.machine, Link.next, Serial.handleDownPacket_wire]
    rfl)
  have hhandled := harrived.step (a := .deliver 0) rfl
  refine ⟨_, _, _, hhandled, rfl, replies_answer_requests hhandled ?_⟩
  rintro visit hvisit ⟨msg, awaited, tx, haction, earlier, hregistered, _⟩
  simp only [List.nil_append, List.cons_append, List.mem_cons, List.not_mem_nil, or_false]
    at hvisit
  rcases hvisit with rfl | rfl | rfl
  · cases hregistered
  · cases haction
  · cases haction

end Ping

end AntRelay.Runtime
