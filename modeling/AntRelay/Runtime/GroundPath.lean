import AntRelay.Runtime.Delivery
import AntRelay.Runtime.Exchange
import AntRelay.Runtime.Forwarding
import AntRelay.Runtime.Relay
import AntRelay.Runtime.Uplink
import Mathlib.Data.List.Perm.Basic

namespace AntRelay.Runtime
open AntRelay.Base AntRelay.Codec AntRelay.Format

variable {crc : Checksum}

structure GroundPath (crc : Checksum) where
  uplink : UplinkActor
  upCommands : List (Message crc)
  relay : Relay crc
  upMessages : List (Message crc)
  port : PortActor

inductive GroundAction (crc : Checksum) where
  | uplink (a : UplinkAction)
  | upCommand
  | relay (a : RelayAction crc)
  | pack
  -- Any step of the port but the arrival of a packet.
  | port (a : PortAction)

inductive GroundSeen (crc : Checksum) where
  | uplink (item : UplinkSeen crc)
  | requested (origin : Origin) (msg : Message crc)
  | relay (item : RelaySeen crc)
  | notPacked (msg : Message crc)
  -- A packet is published that `RawIO` does not get.
  | lost (pkt : Bytes)
  | port (item : PortSeen)

def GroundSeen.ofRequest (request : Origin × Message crc) : GroundSeen crc :=
  .requested request.1 request.2

def RelayAction.bringsCommand : RelayAction crc → Bool
  | .system (.arriveUp _) => true
  | _ => false

def Relay.requests (s : Relay crc) : RelayAction crc → List (Origin × Message crc)
  | .submit index =>
      match s.pending[index]? with
      | some (.request origin msg _) => [(origin, msg)]
      | _ => []
  | _ => []

def RelaySeen.issued? (item : RelaySeen crc) : Option (Message crc) :=
  item.link?.bind LinkSeen.issued?

def PortAction.isArrival : PortAction → Bool
  | .upPacket _ => true
  | _ => false

namespace GroundPath

def default : GroundPath crc where
  uplink := .default
  upCommands := []
  relay := .default
  upMessages := []
  port := .default

def next (cobs : CobsCrate) (s : GroundPath crc) :
    GroundAction crc → Option (GroundPath crc × List (GroundSeen crc))
  | .uplink a =>
      (s.uplink.next crc a).map fun (uplink, shown) =>
        ({ s with
          uplink := uplink
          upCommands := s.upCommands ++ shown.filterMap UplinkSeen.command? }, shown.map .uplink)
  | .upCommand =>
      match s.upCommands with
      | [] => none
      | msg :: upCommands =>
          (s.relay.next (.system (.arriveUp msg))).map fun (relay, shown) =>
            ({ s with upCommands := upCommands, relay := relay }, shown.map .relay)
  | .relay a =>
      if a.bringsCommand then none
      else
        (s.relay.next a).map fun (relay, shown) =>
          ({ s with
            relay := relay
            upMessages := s.upMessages ++ shown.filterMap RelaySeen.issued? },
            (s.relay.requests a).map .ofRequest ++ shown.map .relay)
  | .pack =>
      match s.upMessages with
      | [] => none
      | msg :: upMessages =>
          let s := { s with upMessages := upMessages }
          match Serial.handleUpMessage msg with
          | none => some (s, [.notPacked msg])
          | some packed =>
              match s.port.next cobs (.upPacket packed) with
              | none => some (s, [.lost packed])
              | some (port, shown) => some ({ s with port := port }, shown.map .port)
  | .port a =>
      if a.isArrival then none
      else
        (s.port.next cobs a).map fun (port, shown) => ({ s with port := port }, shown.map .port)

def machine (crc : Checksum) (cobs : CobsCrate) :
    Machine (GroundPath crc) (GroundAction crc) (GroundSeen crc) where
  init := default
  next := next cobs

end GroundPath

section Link

def Effect.issue? : Effect crc → Option (Message crc)
  | .issue msg => some msg
  | _ => none

theorem effects_issued (s : Link crc) (origin : Option Nat) (effs : List (Effect crc)) :
    (s.effects origin effs).2.filterMap LinkSeen.issued? = effs.filterMap Effect.issue? := by
  induction effs generalizing s with
  | nil => rfl
  | cons eff effs ih =>
      rw [Link.effects, List.filterMap_append, ih]
      cases eff with
      | issue msg => rfl
      | send tx resp =>
          simp only [Link.effect]
          split <;> rfl
      | dropSender tx =>
          simp only [Link.effect]
          split <;> rfl

theorem handleRequest_issues (self : Commander) (msg : Message crc) (tx : Sender) :
    (self.handleRequest msg tx).2.filterMap Effect.issue? = [msg] := by
  simp only [Commander.handleRequest, List.filterMap_append]
  cases self.requests.lookup msg.val.header.header.uniqueId <;> rfl

theorem handleDelivery_issues (self : Commander) (delivery : Delivery crc) :
    (Link.handleDelivery self delivery).2.filterMap Effect.issue? = [] := by
  cases delivery with
  | ack msg =>
      simp only [Link.handleDelivery, Commander.handleAck]
      split
      · rfl
      · split
        · rfl
        · split <;> rfl
  | ant pkt =>
      simp only [Link.handleDelivery, Commander.handleAnt]
      split
      · rfl
      · split <;> rfl

theorem link_issues_request {s s' : Link crc} {msg : Message crc} {awaited : Bool}
    {shown : List (LinkSeen crc)} (h : s.next (.request msg awaited) = some (s', shown)) :
    shown.filterMap LinkSeen.issued? = [msg] := by
  simp only [Link.next] at h
  cases h
  rw [List.filterMap_cons_none rfl, effects_issued, handleRequest_issues]

theorem link_issues_nothing {s s' : Link crc} {a : LinkAction crc} {shown : List (LinkSeen crc)}
    (h : s.next a = some (s', shown)) (harrival : ∀ msg awaited, a ≠ .request msg awaited) :
    shown.filterMap LinkSeen.issued? = [] := by
  cases a with
  | request msg awaited => exact absurd rfl (harrival msg awaited)
  | timeout tx =>
      simp only [Link.next] at h
      split at h
      · cases h
        rfl
      · cases h
  | collectGarbage =>
      cases h
      rfl
  | downPacket pkt =>
      simp only [Link.next] at h
      split at h
      · cases h
        rfl
      · split at h <;> cases h <;> rfl
  | antDecode index =>
      simp only [Link.next] at h
      split at h
      · cases h
      · split at h <;> cases h <;> rfl
  | publish delivery =>
      cases h
      rfl
  | deliver index =>
      simp only [Link.next] at h
      split at h
      · cases h
      · cases h
        rw [List.filterMap_cons_none rfl, effects_issued, handleDelivery_issues]

end Link

def Pending.ground? : Pending crc → Option (Message crc)
  | .request (.ground _) msg _ => some msg
  | _ => none

def groundOf (requests : List (Origin × Message crc)) : List (Message crc) :=
  requests.filterMap fun request =>
    match request.1 with
    | .ground _ => some request.2
    | .frontend _ _ => none

def Relay.ground (s : Relay crc) : List (Message crc) :=
  s.pending.filterMap Pending.ground? ++ s.system.ctx.mailbox.filterMap Mail.relayed?

def RelayAction.relayed? : RelayAction crc → Option (Message crc)
  | .system a => a.relayed?
  | _ => none

def GroundKept (pending : List (Pending crc)) : Prop :=
  ∀ entry ∈ pending, entry.ground?.isSome → entry.cancellable = false

section Relay

variable {s s' : Relay crc} {a : RelayAction crc} {shown : List (RelaySeen crc)}

theorem ground?_ofSeen (items : List (Seen crc)) :
    (items.filterMap Pending.ofSeen).filterMap Pending.ground? =
      items.filterMap Seen.forward? := by
  rw [List.filterMap_filterMap]
  apply List.filterMap_congr
  intro item _
  cases item with
  | handled mail => rfl
  | sent output => cases output <;> rfl

theorem filterMap_set_none {f : Pending crc → Option (Message crc)} {pending : List (Pending crc)}
    {index : Nat} {entry entry' : Pending crc} (h : pending[index]? = some entry)
    (hnone : f entry = none) (hnone' : f entry' = none) :
    (pending.set index entry').filterMap f = pending.filterMap f := by
  induction pending generalizing index with
  | nil => cases h
  | cons first rest ih =>
      cases index with
      | zero =>
          cases h
          rw [List.set_cons_zero, List.filterMap_cons_none hnone', List.filterMap_cons_none hnone]
      | succ index =>
          rw [List.set_cons_succ, List.filterMap_cons, List.filterMap_cons, ih h]

theorem filterMap_eraseIdx_perm {f : Pending crc → Option (Message crc)}
    {pending : List (Pending crc)} {index : Nat} {entry : Pending crc}
    (h : pending[index]? = some entry) :
    (pending.filterMap f).Perm ((f entry).toList ++ (pending.eraseIdx index).filterMap f) := by
  obtain ⟨hindex, hentry⟩ := List.getElem?_eq_some_iff.mp h
  have hperm := (List.getElem_cons_eraseIdx_perm hindex).symm.filterMap f
  rw [hentry] at hperm
  cases hf : f entry with
  | none => rwa [List.filterMap_cons_none hf] at hperm
  | some msg => rwa [List.filterMap_cons_some hf] at hperm

theorem GroundKept.eraseIdx {pending : List (Pending crc)} (h : GroundKept pending) (index : Nat) :
    GroundKept (pending.eraseIdx index) :=
  fun entry hmem => h entry (List.mem_of_mem_eraseIdx hmem)

theorem GroundKept.set {pending : List (Pending crc)} (h : GroundKept pending) (index : Nat)
    {entry : Pending crc} (hnone : entry.ground? = none) :
    GroundKept (pending.set index entry) := by
  intro other hmem hground
  rcases List.mem_or_eq_of_mem_set hmem with hold | rfl
  · exact h other hold hground
  · rw [hnone] at hground
    cases hground

theorem GroundKept.append {pending more : List (Pending crc)} (h : GroundKept pending)
    (hmore : GroundKept more) : GroundKept (pending ++ more) := by
  intro entry hmem
  exact (List.mem_append.mp hmem).elim (h entry) (hmore entry)

theorem kept_ofSeen (items : List (Seen crc)) : GroundKept (items.filterMap Pending.ofSeen) := by
  intro entry hmem hground
  obtain ⟨item, _, hitem⟩ := List.mem_filterMap.mp hmem
  cases item with
  | handled mail => cases hitem
  | sent output =>
      cases output with
      | command dest event =>
          cases hitem
          cases hground
      | forward msg =>
          cases hitem
          rfl

theorem ground_of_system (hsound : Sound s.system) {b : Action crc} {system : System crc}
    {items : List (Seen crc)} (h : s.system.next b = some (system, items)) :
    Relay.ground { s with
      system := system
      pending := s.pending ++ items.filterMap Pending.ofSeen } =
        s.ground ++ b.relayed?.toList := by
  have hmoved := (moved_of_next hsound.tracked h).relays
  rw [Relay.ground, List.filterMap_append, ground?_ofSeen, List.append_assoc, hmoved, Relay.ground,
    List.append_assoc]

theorem issued?_system (items : List (Seen crc)) :
    (items.map RelaySeen.system).filterMap RelaySeen.issued? = [] := by
  exact filterMap_map_none fun _ => rfl

theorem issued?_link (items : List (LinkSeen crc)) :
    (items.map RelaySeen.link).filterMap RelaySeen.issued? =
      items.filterMap LinkSeen.issued? := by
  rw [List.filterMap_map]
  rfl

theorem relay_issues (h : s.next a = some (s', shown)) :
    shown.filterMap RelaySeen.issued? = (s.requests a).map Prod.snd := by
  cases relayMoved_of_next h with
  | system _ => exact issued?_system _
  | refused hlink _ =>
      rw [issued?_link]
      exact link_issues_nothing hlink (by simp)
  | received hlink _ _ =>
      rw [List.filterMap_append, issued?_link, issued?_system,
        link_issues_nothing hlink (by simp)]
      rfl
  | submitted hpending hlink =>
      rw [List.filterMap_cons_none rfl, issued?_link, link_issues_request hlink]
      simp only [Relay.requests, hpending]
      rfl
  | link harrival hlink =>
      rw [issued?_link]
      refine link_issues_nothing hlink ?_
      rintro msg awaited rfl
      cases harrival
  | _ => rfl

theorem ground?_of_cancellable {entry : Pending crc} {pending : List (Pending crc)}
    (h : GroundKept pending) (hmem : entry ∈ pending) (hcancels : entry.cancellable = true) :
    entry.ground? = none := by
  cases hground : entry.ground? with
  | none => rfl
  | some msg =>
      have hkept := h entry hmem (by simp [hground])
      rw [hcancels] at hkept
      cases hkept

theorem cancel_keeps_ground {index : Nat} (hkept : GroundKept s.pending)
    (h : s.next (.cancel index) = some (s', shown)) :
    s.ground.Perm s'.ground ∧ GroundKept s'.pending := by
  simp only [Relay.next] at h
  split at h
  · rename_i entry hpending
    split at h
    · rename_i hcancels
      cases h
      have hnone := ground?_of_cancellable hkept (List.mem_of_getElem? hpending) hcancels
      have hperm := filterMap_eraseIdx_perm (f := Pending.ground?) hpending
      rw [hnone, Option.toList_none, List.nil_append] at hperm
      exact ⟨hperm.append_right _, hkept.eraseIdx index⟩
    · cases h
  · cases h

theorem relay_sound (hsound : Sound s.system) (h : s.next a = some (s', shown)) :
    Sound s'.system := by
  cases relayMoved_of_next h with
  | system hsystem => exact hsound.moved (moved_of_next hsound.tracked hsystem)
  | received _ _ hsystem => exact hsound.moved (moved_of_next hsound.tracked hsystem)
  | _ => exact hsound

/-- What of the ground's was in the relay and what a step brings is still there,
or asked of the commander by the step. -/
theorem relay_keeps_ground (hsound : Sound s.system) (hkept : GroundKept s.pending)
    (h : s.next a = some (s', shown)) :
    (s.ground ++ a.relayed?.toList).Perm (groundOf (s.requests a) ++ s'.ground) ∧
      GroundKept s'.pending := by
  have hsame (hrequests : s.requests a = []) (hbrings : a.relayed? = none)
      (hground : s'.ground = s.ground) :
      (s.ground ++ a.relayed?.toList).Perm (groundOf (s.requests a) ++ s'.ground) := by
    rw [hrequests, hbrings, hground]
    simp [groundOf]
  cases relayMoved_of_next h with
  | system hsystem =>
      rw [ground_of_system hsound hsystem]
      exact ⟨.refl _, hkept.append (kept_ofSeen _)⟩
  | refused _ _ => exact ⟨hsame rfl rfl rfl, hkept⟩
  | received _ _ hsystem =>
      cases hsystem
      refine ⟨hsame rfl rfl ?_, hkept⟩
      simp [Relay.ground, Context.doSend, Mail.relayed?]
  | retried =>
      refine ⟨hsame rfl rfl ?_, hkept.append (by simp [GroundKept, Pending.ground?])⟩
      simp [Relay.ground, Pending.ground?]
  | clockRead hpending =>
      refine ⟨hsame rfl rfl ?_, hkept.set _ rfl⟩
      rw [Relay.ground, filterMap_set_none hpending rfl rfl, Relay.ground]
  | seqTaken hpending =>
      refine ⟨hsame rfl rfl ?_, hkept.set _ rfl⟩
      rw [Relay.ground, filterMap_set_none hpending rfl rfl, Relay.ground]
  | composed hpending =>
      refine ⟨hsame rfl rfl ?_, hkept.set _ rfl⟩
      rw [Relay.ground, filterMap_set_none hpending rfl rfl, Relay.ground]
  | @submitted index origin msg awaited _ _ hpending _ =>
      refine ⟨?_, hkept.eraseIdx index⟩
      have hrequests : groundOf (s.requests (.submit index)) =
          (Pending.ground? (.request origin msg awaited)).toList := by
        simp only [Relay.requests, hpending]
        cases origin <;> rfl
      have hperm := filterMap_eraseIdx_perm (f := Pending.ground?) hpending
      rw [hrequests]
      simp only [RelayAction.relayed?, Option.toList_none, List.append_nil, Relay.ground]
      rw [← List.append_assoc]
      exact hperm.append_right _
  | cancelled =>
      obtain ⟨hperm, hkept⟩ := cancel_keeps_ground hkept h
      refine ⟨?_, hkept⟩
      simp only [RelayAction.relayed?, Option.toList_none, List.append_nil]
      exact hperm
  | link _ _ => exact ⟨hsame rfl rfl rfl, hkept⟩

end Relay

def relayedCommand? (pkt : Bytes) : Option (Message crc) :=
  (Uplink.command? pkt).bind fun msg => (Mail.upCommand msg).relayed?

namespace GroundSeen

def packet? : GroundSeen crc → Option Bytes
  | .uplink item => item.packet?
  | _ => none

def request? : GroundSeen crc → Option (Origin × Message crc)
  | .requested origin msg => some (origin, msg)
  | _ => none

def lost? : GroundSeen crc → Option Bytes
  | .lost pkt => some pkt
  | _ => none

def port? : GroundSeen crc → Option PortSeen
  | .port item => some item
  | _ => none

def packed? : GroundSeen crc → Option Bytes
  | .lost pkt => some pkt
  | .port item => item.upPacket?
  | _ => none

end GroundSeen

def groundCommands (seen : List (GroundSeen crc)) : List (Message crc) :=
  (seen.filterMap GroundSeen.packet?).filterMap relayedCommand?

def requestsOf (seen : List (GroundSeen crc)) : List (Origin × Message crc) :=
  seen.filterMap GroundSeen.request?

/-- What of the ground's has not reached the commander. -/
def GroundPath.ground (s : GroundPath crc) : List (Message crc) :=
  s.upCommands.filterMap (fun msg => (Mail.upCommand msg).relayed?) ++ s.relay.ground

structure Passing (s : GroundPath crc) (seen : List (GroundSeen crc)) : Prop where
  sound : Sound s.relay.system
  held : GroundKept s.relay.pending
  commands : (groundCommands seen).Perm (groundOf (requestsOf seen) ++ s.ground)
  messages : (requestsOf seen).map (fun request => wire request.2) =
    seen.filterMap GroundSeen.packed? ++ s.upMessages.map wire
  packs : ∀ msg, .notPacked msg ∉ seen

section Passing

variable {cobs : CobsCrate} {s s' : GroundPath crc} {seen shown : List (GroundSeen crc)}

theorem groundOf_append (first second : List (Origin × Message crc)) :
    groundOf (first ++ second) = groundOf first ++ groundOf second :=
  List.filterMap_append

theorem groundCommands_append (seen shown : List (GroundSeen crc)) :
    groundCommands (seen ++ shown) = groundCommands seen ++ groundCommands shown := by
  rw [groundCommands, List.filterMap_append, List.filterMap_append]
  rfl

theorem requestsOf_append (seen shown : List (GroundSeen crc)) :
    requestsOf (seen ++ shown) = requestsOf seen ++ requestsOf shown :=
  List.filterMap_append

theorem Passing.step (h : Passing s seen) (hsound : Sound s'.relay.system)
    (hkept : GroundKept s'.relay.pending)
    (hground : (s.ground ++ groundCommands shown).Perm (groundOf (requestsOf shown) ++ s'.ground))
    (hmessages : s.upMessages.map wire ++ (requestsOf shown).map (fun request => wire request.2) =
      shown.filterMap GroundSeen.packed? ++ s'.upMessages.map wire)
    (hpacks : ∀ msg, .notPacked msg ∉ shown) : Passing s' (seen ++ shown) where
  sound := hsound
  held := hkept
  commands := by
    rw [groundCommands_append, requestsOf_append, groundOf_append, List.append_assoc]
    have hbefore := h.commands.append_right (groundCommands shown)
    rw [List.append_assoc] at hbefore
    exact hbefore.trans (hground.append_left _)
  messages := by
    rw [requestsOf_append, List.map_append, h.messages, List.filterMap_append, List.append_assoc,
      hmessages, List.append_assoc]
  packs := by
    intro msg hmem
    exact (List.mem_append.mp hmem).elim (h.packs msg) (hpacks msg)

theorem request?_port (crc : Checksum) (items : List PortSeen) :
    requestsOf (items.map GroundSeen.port : List (GroundSeen crc)) = [] ∧
      groundCommands (items.map GroundSeen.port : List (GroundSeen crc)) = [] ∧
      (items.map GroundSeen.port : List (GroundSeen crc)).filterMap GroundSeen.packed? =
        items.filterMap PortSeen.upPacket? := by
  refine ⟨?_, ?_, ?_⟩
  · exact filterMap_map_none fun _ => rfl
  · have hnone : (items.map GroundSeen.port : List (GroundSeen crc)).filterMap
        GroundSeen.packet? = [] := filterMap_map_none fun _ => rfl
    rw [groundCommands, hnone]
    rfl
  · rw [List.filterMap_map]
    rfl

theorem request?_relay (items : List (RelaySeen crc)) :
    requestsOf (items.map GroundSeen.relay) = [] ∧
      groundCommands (items.map GroundSeen.relay) = [] ∧
      (items.map GroundSeen.relay).filterMap GroundSeen.packed? = [] := by
  refine ⟨?_, ?_, ?_⟩
  · exact filterMap_map_none fun _ => rfl
  · have hnone : (items.map GroundSeen.relay).filterMap GroundSeen.packet? = [] :=
      filterMap_map_none fun _ => rfl
    rw [groundCommands, hnone]
    rfl
  · exact filterMap_map_none fun _ => rfl

theorem request?_uplink (items : List (UplinkSeen crc)) :
    requestsOf (items.map GroundSeen.uplink) = [] ∧
      groundCommands (items.map GroundSeen.uplink) =
        (items.filterMap UplinkSeen.packet?).filterMap relayedCommand? ∧
      (items.map GroundSeen.uplink).filterMap GroundSeen.packed? = [] := by
  refine ⟨?_, ?_, ?_⟩
  · exact filterMap_map_none fun _ => rfl
  · rw [groundCommands, List.filterMap_map]
    rfl
  · exact filterMap_map_none fun _ => rfl

theorem commands_of_uplink {uplink uplink' : UplinkActor} {a : UplinkAction}
    {items : List (UplinkSeen crc)} (h : uplink.next crc a = some (uplink', items)) :
    (items.filterMap UplinkSeen.command?).filterMap (fun msg => (Mail.upCommand msg).relayed?) =
      (items.filterMap UplinkSeen.packet?).filterMap relayedCommand? := by
  rcases uplink_shown h with rfl | ⟨datagram, rfl⟩
  · rfl
  · have hnone : ((Uplink.publishes crc (datagram.take UplinkActor.bufferSize)).map
        UplinkSeen.issued).filterMap UplinkSeen.packet? = [] := by
      exact filterMap_map_none fun _ => rfl
    have hpacket : UplinkSeen.packet? (.received datagram : UplinkSeen crc) =
        some (datagram.take UplinkActor.bufferSize) := rfl
    rw [List.filterMap_cons_none rfl, filterMap_command?_map, List.filterMap_cons_some hpacket,
      hnone]
    simp only [relayedCommand?, List.filterMap_cons, List.filterMap_nil]
    cases (Uplink.command? (datagram.take UplinkActor.bufferSize) : Option (Message crc)) with
    | none => rfl
    | some msg =>
        simp only [Option.toList_some, Option.bind_some, List.filterMap_cons, List.filterMap_nil]

theorem Passing.uplink (h : Passing s seen) {a : UplinkAction}
    (hnext : s.next cobs (.uplink a) = some (s', shown)) : Passing s' (seen ++ shown) := by
  obtain ⟨⟨uplink, items⟩, huplink, hresult⟩ := Option.map_eq_some_iff.mp hnext
  cases hresult
  obtain ⟨hrequests, hcommands, hpacked⟩ := request?_uplink items
  refine h.step h.sound h.held ?_ ?_ (by simp)
  · rw [hrequests, hcommands, ← commands_of_uplink huplink]
    simp only [GroundPath.ground, List.filterMap_append, groundOf, List.filterMap_nil,
      List.nil_append, List.append_assoc]
    exact List.perm_append_comm.append_left _
  · rw [hrequests, hpacked]
    simp

theorem Passing.upCommand (h : Passing s seen)
    (hnext : s.next cobs .upCommand = some (s', shown)) : Passing s' (seen ++ shown) := by
  simp only [GroundPath.next] at hnext
  split at hnext
  · cases hnext
  · rename_i msg upCommands hqueue
    obtain ⟨⟨relay, items⟩, hrelay, hresult⟩ := Option.map_eq_some_iff.mp hnext
    cases hresult
    obtain ⟨hrequests, hcommands, hpacked⟩ := request?_relay items
    obtain ⟨hperm, hkept⟩ := relay_keeps_ground h.sound h.held hrelay
    refine h.step ?_ hkept ?_ ?_ (by simp)
    · cases hrelay
      exact h.sound.moved (.arrivedUp msg)
    · rw [hrequests, hcommands, List.append_nil]
      have hbrought : groundOf (s.relay.requests (.system (.arriveUp msg))) = [] := rfl
      rw [hbrought, List.nil_append] at hperm
      simp only [GroundPath.ground, hqueue, groundOf, List.filterMap_nil, List.nil_append]
      have hbring : RelayAction.relayed? (.system (.arriveUp msg)) =
          (Mail.upCommand msg).relayed? := rfl
      rw [hbring] at hperm
      have hfirst : (msg :: upCommands).filterMap (fun msg => (Mail.upCommand msg).relayed?) =
          (Mail.upCommand msg).relayed?.toList ++
            upCommands.filterMap fun msg => (Mail.upCommand msg).relayed? := by
        cases hrelayed : (Mail.upCommand msg).relayed? <;> simp [hrelayed]
      rw [hfirst]
      refine List.Perm.trans ?_ (hperm.append_left _)
      rw [List.append_assoc]
      exact List.perm_append_comm.trans (.of_eq (List.append_assoc ..))
    · rw [hrequests, hpacked]
      simp

theorem requests_shown (requests : List (Origin × Message crc)) (items : List (RelaySeen crc)) :
    requestsOf (requests.map GroundSeen.ofRequest ++ items.map GroundSeen.relay) = requests ∧
      groundCommands (requests.map GroundSeen.ofRequest ++ items.map GroundSeen.relay) = [] ∧
      (requests.map GroundSeen.ofRequest ++ items.map GroundSeen.relay).filterMap
        GroundSeen.packed? = [] := by
  obtain ⟨hrequests, hcommands, hpacked⟩ := request?_relay items
  refine ⟨?_, ?_, ?_⟩
  · rw [requestsOf_append, hrequests, List.append_nil]
    exact filterMap_map_some fun _ => rfl
  · have hnone : (requests.map GroundSeen.ofRequest).filterMap GroundSeen.packet? = [] :=
      filterMap_map_none fun _ => rfl
    rw [groundCommands_append, hcommands, List.append_nil, groundCommands, hnone]
    rfl
  · rw [List.filterMap_append, hpacked, List.append_nil]
    exact filterMap_map_none fun _ => rfl

theorem Passing.relay (h : Passing s seen) {a : RelayAction crc}
    (hnext : s.next cobs (.relay a) = some (s', shown)) : Passing s' (seen ++ shown) := by
  simp only [GroundPath.next] at hnext
  split at hnext
  · cases hnext
  · rename_i hbrings
    obtain ⟨⟨relay, items⟩, hrelay, hresult⟩ := Option.map_eq_some_iff.mp hnext
    cases hresult
    obtain ⟨hrequests, hcommands, hpacked⟩ := requests_shown (s.relay.requests a) items
    obtain ⟨hperm, hkept⟩ := relay_keeps_ground h.sound h.held hrelay
    have hnone : a.relayed? = none := by
      cases a with
      | system b =>
          cases b with
          | arriveUp msg => exact absurd rfl hbrings
          | _ => rfl
      | _ => rfl
    rw [hnone, Option.toList_none, List.append_nil] at hperm
    refine h.step (relay_sound h.sound hrelay) hkept ?_ ?_ (by simp [GroundSeen.ofRequest])
    · rw [hrequests, hcommands, List.append_nil]
      simp only [GroundPath.ground]
      have hmore := hperm.append_left
        (s.upCommands.filterMap fun msg => (Mail.upCommand msg).relayed?)
      refine hmore.trans ?_
      rw [← List.append_assoc, ← List.append_assoc]
      exact List.perm_append_comm.append_right _
    · rw [hrequests, hpacked, List.nil_append, List.map_append, relay_issues hrelay, List.map_map]
      rfl

theorem Passing.pack (h : Passing s seen) (hnext : s.next cobs .pack = some (s', shown)) :
    Passing s' (seen ++ shown) := by
  simp only [GroundPath.next] at hnext
  split at hnext
  · cases hnext
  · rename_i msg upMessages hqueue
    rw [Serial.handleUpMessage_eq] at hnext
    simp only at hnext
    split at hnext
    · cases hnext
      refine h.step h.sound h.held (.of_eq (List.append_nil _)) ?_ (by simp)
      simp [hqueue, requestsOf, GroundSeen.request?, GroundSeen.packed?]
    · rename_i port items hport
      cases hnext
      obtain ⟨hrequests, hcommands, hpacked⟩ := request?_port crc items
      have hitems : items = [.upPacket (wire msg)] := by
        cases portMoved_of_next hport
        rfl
      refine h.step h.sound h.held ?_ ?_ (by simp)
      · rw [hrequests, hcommands]
        simp [groundOf, GroundPath.ground]
      · rw [hrequests, hpacked, hqueue, hitems]
        exact List.append_nil _

theorem Passing.port (h : Passing s seen) {a : PortAction}
    (hnext : s.next cobs (.port a) = some (s', shown)) : Passing s' (seen ++ shown) := by
  simp only [GroundPath.next] at hnext
  split at hnext
  · cases hnext
  · rename_i harrival
    obtain ⟨⟨port, items⟩, hport, hresult⟩ := Option.map_eq_some_iff.mp hnext
    cases hresult
    obtain ⟨hrequests, hcommands, hpacked⟩ := request?_port crc items
    have hnone : items.filterMap PortSeen.upPacket? = [] := by
      cases portMoved_of_next hport with
      | arrived pkt => exact absurd rfl harrival
      | _ => rfl
    refine h.step h.sound h.held ?_ ?_ (by simp)
    · rw [hrequests, hcommands]
      simp [groundOf, GroundPath.ground]
    · rw [hrequests, hpacked, hnone]
      simp

theorem Passing.next (h : Passing s seen) {a : GroundAction crc}
    (hnext : s.next cobs a = some (s', shown)) : Passing s' (seen ++ shown) := by
  cases a with
  | uplink a => exact h.uplink hnext
  | upCommand => exact h.upCommand hnext
  | relay a => exact h.relay hnext
  | pack => exact h.pack hnext
  | port a => exact h.port hnext

theorem passing_init : Passing (GroundPath.machine crc cobs).init [] where
  sound := sound_init
  held := by
    intro entry hmem
    cases hmem
  commands := .refl _
  messages := rfl
  packs := by simp

end Passing

def Unheard (before : List PortSeen) : Prop :=
  (∀ n, .opened n ∉ before) ∨ .panicked ∈ before

structure PortFlags (s : PortActor) (seen : List PortSeen) : Prop where
  subscribed : s.subscribed = false → ∀ n, .opened n ∉ seen
  panicked : s.panicked = true → .panicked ∈ seen

theorem PortFlags.moved {cobs : CobsCrate} {s s' : PortActor} {a : PortAction}
    {seen shown : List PortSeen} (h : PortFlags s seen) (hmoved : PortMoved cobs s a s' shown) :
    PortFlags s' (seen ++ shown) := by
  have hpanicked (hsame : s'.panicked = s.panicked) (hflag : s'.panicked = true) :
      .panicked ∈ seen ++ shown :=
    List.mem_append_left _ (h.panicked (hsame.symm.trans hflag))
  have hsubscribed (hsame : s'.subscribed = s.subscribed) (hnone : ∀ n, .opened n ∉ shown)
      (hflag : s'.subscribed = false) (n : Nat) : .opened n ∉ seen ++ shown := by
    rw [List.mem_append, not_or]
    exact ⟨h.subscribed (hsame.symm.trans hflag) n, hnone n⟩
  cases hmoved with
  | opened _ => exact ⟨fun hflag => absurd hflag (by simp), hpanicked rfl⟩
  | readFailed => exact ⟨hsubscribed rfl (by simp), fun _ => by simp⟩
  | _ => exact ⟨hsubscribed rfl (by simp), hpanicked rfl⟩

/-- A packet that is lost is lost before the port has been opened, or after
`RawIO` has gone. -/
def LostUnheard (before : List (GroundSeen crc)) (item : GroundSeen crc) : Prop :=
  ∀ pkt, item = .lost pkt → Unheard (before.filterMap GroundSeen.port?)

section Lost

variable {cobs : CobsCrate} {s s' : GroundPath crc} {seen shown : List (GroundSeen crc)}

theorem filterMap_port?_port (items : List PortSeen) :
    (items.map GroundSeen.port : List (GroundSeen crc)).filterMap GroundSeen.port? = items := by
  exact filterMap_map_some fun _ => rfl

theorem port_of_next {a : GroundAction crc} (hnext : s.next cobs a = some (s', shown)) :
    (s'.port = s.port ∧ shown.filterMap GroundSeen.port? = [] ∧
      ∀ pkt, .lost pkt ∈ shown → shown = [.lost pkt] ∧
        (s.port.subscribed = false ∨ s.port.panicked = true)) ∨
      ∃ b items, s.port.next cobs b = some (s'.port, items) ∧ shown = items.map .port := by
  cases a with
  | uplink a =>
      obtain ⟨⟨uplink, items⟩, _, hresult⟩ := Option.map_eq_some_iff.mp hnext
      cases hresult
      refine .inl ⟨rfl, ?_, by simp⟩
      exact filterMap_map_none fun _ => rfl
  | upCommand =>
      simp only [GroundPath.next] at hnext
      split at hnext
      · cases hnext
      · obtain ⟨⟨relay, items⟩, _, hresult⟩ := Option.map_eq_some_iff.mp hnext
        cases hresult
        refine .inl ⟨rfl, ?_, by simp⟩
        exact filterMap_map_none fun _ => rfl
  | relay a =>
      simp only [GroundPath.next] at hnext
      split at hnext
      · cases hnext
      · obtain ⟨⟨relay, items⟩, _, hresult⟩ := Option.map_eq_some_iff.mp hnext
        cases hresult
        refine .inl ⟨rfl, ?_, by simp [GroundSeen.ofRequest]⟩
        rw [List.filterMap_append]
        exact List.append_eq_nil_iff.mpr
          ⟨filterMap_map_none fun _ => rfl, filterMap_map_none fun _ => rfl⟩
  | pack =>
      simp only [GroundPath.next] at hnext
      split at hnext
      · cases hnext
      · rw [Serial.handleUpMessage_eq] at hnext
        simp only at hnext
        split at hnext
        · rename_i msg upMessages _ _ hrefused
          cases hnext
          refine .inl ⟨rfl, rfl, ?_⟩
          intro pkt hmem
          cases List.mem_singleton.mp hmem
          refine ⟨rfl, ?_⟩
          simp only [PortActor.next] at hrefused
          split at hrefused
          · cases hrefused
          · rename_i hflags
            cases hsubscribed : s.port.subscribed with
            | false => exact .inl rfl
            | true => exact .inr (by simpa [hsubscribed] using hflags)
        · rename_i port items hport
          cases hnext
          exact .inr ⟨_, items, hport, rfl⟩
  | port a =>
      simp only [GroundPath.next] at hnext
      split at hnext
      · cases hnext
      · obtain ⟨⟨port, items⟩, hport, hresult⟩ := Option.map_eq_some_iff.mp hnext
        cases hresult
        exact .inr ⟨a, items, hport, rfl⟩

theorem lost_next (hflags : PortFlags s.port (seen.filterMap GroundSeen.port?))
    (hlost : Historically LostUnheard seen) {a : GroundAction crc}
    (hnext : s.next cobs a = some (s', shown)) :
    PortFlags s'.port ((seen ++ shown).filterMap GroundSeen.port?) ∧
      Historically LostUnheard (seen ++ shown) := by
  rw [List.filterMap_append]
  rcases port_of_next hnext with ⟨hport, hnone, hrefused⟩ | ⟨b, items, hport, rfl⟩
  · rw [hport, hnone, List.append_nil]
    refine ⟨hflags, ?_⟩
    by_cases hany : ∃ pkt, GroundSeen.lost pkt ∈ shown
    · obtain ⟨pkt, hmem⟩ := hany
      obtain ⟨rfl, hunheard⟩ := hrefused pkt hmem
      apply hlost.concat
      intro _ _
      exact hunheard.imp hflags.subscribed hflags.panicked
    · apply hlost.append
      rintro item hmem before pkt rfl
      exact absurd ⟨pkt, hmem⟩ hany
  · rw [filterMap_port?_port]
    refine ⟨hflags.moved (portMoved_of_next hport), ?_⟩
    apply hlost.append
    rintro item hmem before pkt rfl
    obtain ⟨_, _, hitem⟩ := List.mem_map.mp hmem
    cases hitem

theorem port_run {visits : List (Visit (GroundPath crc) (GroundAction crc) (GroundSeen crc))}
    (hrun : (GroundPath.machine crc cobs).Run visits s seen) :
    ∃ portVisits, (PortActor.machine cobs).Run portVisits s.port
      (seen.filterMap GroundSeen.port?) := by
  induction hrun with
  | start => exact ⟨[], .start⟩
  | step _ hnext ih =>
      obtain ⟨portVisits, hport⟩ := ih
      rw [List.filterMap_append]
      rcases port_of_next hnext with ⟨hsame, hnone, _⟩ | ⟨b, items, hstep, rfl⟩
      · rw [hsame, hnone, List.append_nil]
        exact ⟨portVisits, hport⟩
      · rw [filterMap_port?_port]
        exact ⟨_, hport.step hstep⟩

end Lost

/-- The packets from the ground that hold a command to be passed on. -/
def groundDatagrams (seen : List (GroundSeen crc)) : List Bytes :=
  (seen.filterMap GroundSeen.packet?).filter fun pkt =>
    (relayedCommand? pkt : Option (Message crc)).isSome

/-- The commands of the relay itself among these requests. -/
def ownOf (requests : List (Origin × Message crc)) : List (Message crc) :=
  requests.filterMap fun request =>
    match request.1 with
    | .ground _ => none
    | .frontend _ _ => some request.2

def sentToPorts (s : GroundPath crc) (seen : List (GroundSeen crc)) : List Bytes :=
  (List.range s.port.opened).flatMap fun n => sentTo n (seen.filterMap GroundSeen.port?)

section Runs

variable {cobs : CobsCrate} {s : GroundPath crc} {seen : List (GroundSeen crc)}

theorem groundDatagrams_eq (seen : List (GroundSeen crc)) :
    groundDatagrams seen = (groundCommands seen).map wire := by
  unfold groundDatagrams groundCommands
  induction seen.filterMap GroundSeen.packet? with
  | nil => rfl
  | cons pkt pkts ih =>
      cases hcommand : (relayedCommand? pkt : Option (Message crc)) with
      | none =>
          rw [List.filter_cons_of_neg (by simp [hcommand]), List.filterMap_cons_none hcommand, ih]
      | some msg =>
          have hwire : wire msg = pkt := by
            obtain ⟨found, hfound, hrelayed⟩ := Option.bind_eq_some_iff.mp hcommand
            simp only [Mail.relayed?] at hrelayed
            split at hrelayed
            · cases hrelayed
              exact wire_of_command? hfound
            · cases hrelayed
          rw [List.filter_cons_of_pos (by simp [hcommand]), List.filterMap_cons_some hcommand,
            List.map_cons, hwire, ih]

theorem ground_own_perm (requests : List (Origin × Message crc)) :
    (groundOf requests ++ ownOf requests).Perm (requests.map Prod.snd) := by
  induction requests with
  | nil => exact .refl _
  | cons request requests ih =>
      obtain ⟨origin, msg⟩ := request
      cases origin with
      | ground header => exact ih.cons msg
      | frontend reading call => exact List.perm_middle.trans (ih.cons msg)

theorem packed_perm (seen : List (GroundSeen crc)) :
    (seen.filterMap GroundSeen.packed?).Perm
      ((seen.filterMap GroundSeen.port?).filterMap PortSeen.upPacket? ++
        seen.filterMap GroundSeen.lost?) := by
  induction seen with
  | nil => exact .refl _
  | cons item seen ih =>
      cases item with
      | lost pkt => exact (ih.cons pkt).trans List.perm_middle.symm
      | port shown =>
          cases shown with
          | upPacket pkt => exact ih.cons pkt
          | _ => exact ih
      | _ => exact ih

/-- What has come for the port is in exactly one place. -/
theorem datagrams_perm
    {visits : List (Visit (GroundPath crc) (GroundAction crc) (GroundSeen crc))}
    (hrun : (GroundPath.machine crc cobs).Run visits s seen) :
    (groundDatagrams seen ++ (ownOf (requestsOf seen)).map wire).Perm
      (sentToPorts s seen ++ s.port.mailbox ++ (s.upMessages ++ s.ground).map wire ++
        seen.filterMap GroundSeen.lost?) := by
  obtain ⟨hpassing, _⟩ := hrun.always Passing passing_init fun hinv hnext => hinv.next hnext
  obtain ⟨portVisits, hport⟩ := port_run hrun
  have harrived := (delivered_of_run hport).arrived
  have hcommands := hpassing.commands.map wire
  have hrequests := (ground_own_perm (requestsOf seen)).map wire
  have hpacked := packed_perm seen
  have hmessages := hpassing.messages
  rw [harrived] at hpacked
  rw [List.map_map] at hrequests
  rw [groundDatagrams_eq, List.perm_iff_count]
  intro pkt
  have hcount₁ := hcommands.count_eq pkt
  have hcount₂ := hrequests.count_eq pkt
  have hcount₃ := hpacked.count_eq pkt
  have hcount₄ := congrArg (List.count pkt) hmessages
  simp only [List.map_append, List.count_append, sentToPorts] at hcount₁ hcount₂ hcount₃ hcount₄ ⊢
  have hsame : List.count pkt (List.map (wire ∘ Prod.snd) (requestsOf seen)) =
      List.count pkt ((requestsOf seen).map fun request => wire request.2) := rfl
  omega

/-- In every run, each datagram from the ground with a command for the ant or the
central station, and each command of the relay itself that the commander has been
handed, is in exactly one place, byte for byte: it has been given to the writer of
a port, or waits for it, or it is on its way, or it was packed when `RawIO` did
not listen. -/
theorem ground_datagrams_reach_port
    {visits : List (Visit (GroundPath crc) (GroundAction crc) (GroundSeen crc))}
    (hrun : (GroundPath.machine crc cobs).Run visits s seen) :
    (groundDatagrams seen ++ (ownOf (requestsOf seen)).map wire).Perm
        (sentToPorts s seen ++ s.port.mailbox ++ (s.upMessages ++ s.ground).map wire ++
          seen.filterMap GroundSeen.lost?) ∧
      Historically LostUnheard seen := by
  obtain ⟨⟨_, hlost⟩, _⟩ := hrun.always
    (fun s seen => PortFlags s.port (seen.filterMap GroundSeen.port?) ∧
      Historically LostUnheard seen)
    ⟨⟨by simp, by simp [GroundPath.machine, GroundPath.default, PortActor.default]⟩,
      Historically.nil⟩
    (fun hinv hnext => lost_next hinv.1 hinv.2 hnext)
  exact ⟨datagrams_perm hrun, hlost⟩

def groundPings : List (GroundAction (StandardCRC crc8Smbus)) :=
  [.port (.finish 0 true), .uplink (.connect true),
    .uplink (.recv (wire (command (StandardCRC crc8Smbus) ⟨⟨0⟩, 0⟩ .ant .antPing))),
    .uplink (.recv (wire (command (StandardCRC crc8Smbus) ⟨⟨0⟩, 1⟩ .centralStation .csPing))),
    .upCommand, .relay (.system .handle), .relay (.submit 1), .pack, .port .handle]

set_option maxRecDepth 100000 in
theorem ground_datagrams_reach_port_groundPings : ∃ visits s seen,
    (GroundPath.machine (StandardCRC crc8Smbus) .reference).Run visits s seen ∧
      sentToPorts s seen = [wire (command (StandardCRC crc8Smbus) ⟨⟨0⟩, 0⟩ .ant .antPing)] ∧
      (groundDatagrams seen ++ (ownOf (requestsOf seen)).map wire).Perm
        (sentToPorts s seen ++ s.port.mailbox ++ (s.upMessages ++ s.ground).map wire ++
          seen.filterMap GroundSeen.lost?) := by
  have hrun := Machine.Run.start.follow
    (show (GroundPath.machine (StandardCRC crc8Smbus) .reference).follow [] _ [] groundPings =
      some (_, _, _) from rfl)
  exact ⟨_, _, _, hrun, rfl, (ground_datagrams_reach_port hrun).1⟩

end Runs

end AntRelay.Runtime
