import AntRelay.Base.Follows
import AntRelay.Runtime.PacketReplies
import AntRelay.Runtime.Reconnect

namespace AntRelay.Runtime
open AntRelay.Base AntRelay.Format

variable {crc : Checksum} {ε : Type}

namespace NodeSeen

def posted? : NodeSeen crc ε → Option (BroadcastPost crc)
  | .posted post => some post
  | _ => none

def handled? (listener : Listener) : NodeSeen crc ε → Option (Broadcast crc)
  | .handled other msg => if other = listener then some msg else none
  | _ => none

def shown? (address : Nat) : NodeSeen crc ε → Option (DownlinkSeen ε)
  | .downlink other item => if other = address then some item else none
  | _ => none

end NodeSeen

def posted (seen : List (NodeSeen crc ε)) : List (BroadcastPost crc) :=
  Listener.start ++ seen.filterMap NodeSeen.posted?

def issued (seen : List (NodeSeen crc ε)) : List (Broadcast crc) :=
  (posted seen).filterMap Post.issued?

def handledBy (listener : Listener) (seen : List (NodeSeen crc ε)) : List (Broadcast crc) :=
  seen.filterMap (NodeSeen.handled? listener)

def shownBy (address : Nat) (seen : List (NodeSeen crc ε)) : List (DownlinkSeen ε) :=
  seen.filterMap (NodeSeen.shown? address)

section Seen

variable (seen : List (NodeSeen crc ε)) (posts : List (BroadcastPost crc))
  (items : List (DownlinkSeen ε)) (listener : Listener) (msg : Broadcast crc) (address : Nat)

theorem posted_append (more : List (NodeSeen crc ε)) :
    posted (seen ++ more) = posted seen ++ more.filterMap NodeSeen.posted? := by
  rw [posted, List.filterMap_append, ← List.append_assoc]
  rfl

theorem handledBy_append (more : List (NodeSeen crc ε)) :
    handledBy listener (seen ++ more) = handledBy listener seen ++ handledBy listener more :=
  List.filterMap_append

theorem shownBy_append (more : List (NodeSeen crc ε)) :
    shownBy address (seen ++ more) = shownBy address seen ++ shownBy address more :=
  List.filterMap_append

theorem filterMap_posted?_posted :
    (posts.map NodeSeen.posted : List (NodeSeen crc ε)).filterMap NodeSeen.posted? = posts := by
  exact filterMap_map_some fun _ => rfl

theorem filterMap_posted?_downlink :
    (items.map (.downlink address) : List (NodeSeen crc ε)).filterMap NodeSeen.posted? = [] := by
  exact filterMap_map_none fun _ => rfl

theorem handledBy_posted :
    handledBy listener (posts.map NodeSeen.posted : List (NodeSeen crc ε)) = [] := by
  exact filterMap_map_none fun _ => rfl

theorem handledBy_downlink :
    handledBy listener (items.map (.downlink address) : List (NodeSeen crc ε)) = [] := by
  exact filterMap_map_none fun _ => rfl

theorem shownBy_posted :
    shownBy address (posts.map NodeSeen.posted : List (NodeSeen crc ε)) = [] := by
  exact filterMap_map_none fun _ => rfl

theorem shownBy_downlink (other : Nat) :
    shownBy address (items.map (.downlink other) : List (NodeSeen crc ε)) =
      if other = address then items else [] := by
  split
  · rename_i hother
    apply filterMap_map_some
    intro item
    exact if_pos hother
  · rename_i hother
    apply filterMap_map_none
    intro item
    exact if_neg hother

theorem handledBy_append_of_nil {more : List (NodeSeen crc ε)}
    (h : ∀ listener, handledBy listener more = []) :
    (fun listener => handledBy listener (seen ++ more)) =
      fun listener => handledBy listener seen := by
  funext listener
  rw [handledBy_append, h, List.append_nil]

theorem posted_handled : posted (seen ++ [.handled listener msg]) = posted seen := by
  rw [posted_append]
  exact List.append_nil _

theorem handledBy_handled :
    (fun other => handledBy other (seen ++ [.handled listener msg])) =
      Function.update (fun other => handledBy other seen) listener
        (handledBy listener seen ++ [msg]) := by
  funext other
  rw [handledBy_append]
  by_cases hother : other = listener
  · subst hother
    simp [handledBy, NodeSeen.handled?]
  · simp [handledBy, NodeSeen.handled?, Function.update_of_ne hother, Ne.symm hother]

end Seen

inductive ComesIn : List (Broadcast crc) → Prop where
  | upMessage (msg : Message crc) : ComesIn [.upMessage msg]
  | serialDownPacket (pkt : Bytes) : ComesIn [.serialDownPacket pkt]
  | datagram (pkt : Bytes) : ComesIn (Uplink.publishes crc pkt)
  | log (log : Log) : ComesIn [.log log]

inductive NodeMoved (brotli : Brotli ε) (s : Node crc) :
    Node crc → List (NodeSeen crc ε) → Prop where
  | published {msgs : List (Broadcast crc)} (h : ComesIn msgs) :
      NodeMoved brotli s { s with bus := s.bus.post (msgs.map .issue) }
        ((msgs.map Post.issue).map .posted)
  | forwarded {bus : BroadcastBus crc} (h : s.bus.forward Broadcast.topic = some bus) :
      NodeMoved brotli s { s with bus := bus } []
  | reacted {listener : Listener} {msg : Broadcast crc} {bus : BroadcastBus crc}
      (h : s.bus.take listener = some (msg, bus))
      (hlistener : ∀ address, listener ≠ .downlink address) :
      NodeMoved brotli s { s with bus := bus.post ((listener.publishes msg).map .issue) }
        (.handled listener msg :: ((listener.publishes msg).map Post.issue).map .posted)
  | finished {address : Nat} {actor : DownlinkActor} {topics : List Topic}
      {shown : List (DownlinkSeen ε)} (hrunning : (s.downlinks address).stopping = false)
      (h : (s.downlinks address).Finished actor topics shown) :
      NodeMoved brotli s
        { s with
          bus := s.bus.post (topics.map (.subscribe (.downlink address)))
          downlinks := Function.update s.downlinks address actor }
        ((topics.map (Post.subscribe (.downlink address))).map .posted ++
          shown.map (.downlink address))
  | echoed {address : Nat} {msg : Broadcast crc} {bus : BroadcastBus crc} {actor : DownlinkActor}
      {shown : List (DownlinkSeen ε)} (hready : (s.downlinks address).ready = true)
      (h : s.bus.take (.downlink address) = some (msg, bus))
      (hactor : (match DownlinkActor.extract msg with
        | some d => (s.downlinks address).handle brotli d
        | none => (s.downlinks address, [])) = (actor, shown)) :
      NodeMoved brotli s
        { s with bus := bus, downlinks := Function.update s.downlinks address actor }
        (.handled (.downlink address) msg :: shown.map (.downlink address))
  | restarted {address : Nat} {actor : DownlinkActor}
      (h : (s.downlinks address).restart = some actor) :
      NodeMoved brotli s { s with downlinks := Function.update s.downlinks address actor } []

theorem nodeMoved_of_react {brotli : Brotli ε} {s s' : Node crc} {listener : Listener}
    {shown : List (NodeSeen crc ε)} (hlistener : ∀ address, listener ≠ .downlink address)
    (h : s.react listener = some (s', shown)) : NodeMoved brotli s s' shown := by
  obtain ⟨⟨msg, bus⟩, htake, heq⟩ := Option.map_eq_some_iff.mp h
  cases heq
  exact .reacted htake hlistener

theorem nodeMoved_of_next {brotli : Brotli ε} {s s' : Node crc} {a : NodeAction crc}
    {shown : List (NodeSeen crc ε)} (h : s.next brotli a = some (s', shown)) :
    NodeMoved brotli s s' shown := by
  cases a with
  | upMessage msg =>
      cases h
      exact .published (.upMessage msg)
  | serialDownPacket pkt =>
      cases h
      exact .published (.serialDownPacket pkt)
  | datagram pkt =>
      cases h
      exact .published (.datagram pkt)
  | log log =>
      cases h
      exact .published (.log log)
  | forward =>
      obtain ⟨bus, hforward, heq⟩ := Option.map_eq_some_iff.mp h
      cases heq
      exact .forwarded hforward
  | serial => exact nodeMoved_of_react (by simp) h
  | antDecode => exact nodeMoved_of_react (by simp) h
  | downlink address a =>
      cases a with
      | finish index ok =>
          obtain ⟨⟨actor, topics, more⟩, hfinish, heq⟩ := Option.map_eq_some_iff.mp h
          cases heq
          obtain ⟨hrunning, hfinished⟩ := DownlinkActor.finished_of_finish hfinish
          exact .finished hrunning hfinished
      | handle =>
          simp only [Node.next, Node.downlink] at h
          split at h
          · cases h
          · rename_i hready
            obtain ⟨⟨msg, bus⟩, htake, heq⟩ := Option.map_eq_some_iff.mp h
            cases heq
            exact .echoed (by simpa using hready) htake rfl
      | restart =>
          obtain ⟨actor, hrestart, heq⟩ := Option.map_eq_some_iff.mp h
          cases heq
          exact .restarted hrestart

section Kept

variable {brotli : Brotli ε} {s s' : Node crc} {seen shown : List (NodeSeen crc ε)}

def BusKept (s : Node crc) (seen : List (NodeSeen crc ε)) : Prop :=
  s.bus.Kept Broadcast.topic (posted seen) fun listener => handledBy listener seen

theorem busKept_default : BusKept (Node.default : Node crc) ([] : List (NodeSeen crc ε)) :=
  Bus.kept_start _

theorem BusKept.moved (h : BusKept s seen) (hmoved : NodeMoved brotli s s' shown) :
    BusKept s' (seen ++ shown) := by
  unfold BusKept at *
  cases hmoved with
  | published _ =>
      rw [posted_append, filterMap_posted?_posted,
        handledBy_append_of_nil _ fun listener => handledBy_posted _ listener]
      exact h.post _
  | forwarded hforward =>
      rw [List.append_nil]
      exact h.forward hforward
  | @reacted listener msg bus htake _ =>
      rw [← List.singleton_append, ← List.append_assoc, posted_append, filterMap_posted?_posted,
        posted_handled, handledBy_append_of_nil _ fun listener => handledBy_posted _ listener,
        handledBy_handled]
      exact (h.take htake).post _
  | finished _ _ =>
      rw [← List.append_assoc, posted_append, filterMap_posted?_downlink, List.append_nil,
        handledBy_append_of_nil _ fun listener => handledBy_downlink _ listener _, posted_append,
        filterMap_posted?_posted,
        handledBy_append_of_nil _ fun listener => handledBy_posted _ listener]
      exact h.post _
  | @echoed address msg bus actor more _ htake _ =>
      rw [← List.singleton_append, ← List.append_assoc, posted_append, filterMap_posted?_downlink,
        List.append_nil, posted_handled,
        handledBy_append_of_nil _ fun listener => handledBy_downlink _ listener _,
        handledBy_handled]
      exact h.take htake
  | restarted _ =>
      rw [List.append_nil]
      exact h

end Kept

namespace Broadcast

def packed? (msg : Broadcast crc) : Option Bytes :=
  msg.upMessage?.map wire

def unpacked? (msg : Broadcast crc) : Option (Message crc) :=
  msg.serialDownPacket?.bind Serial.handleDownPacket

def carried? (msg : Broadcast crc) : Option (AntPacket crc) :=
  msg.downMessage?.bind AntDecode.handle

def commanded? (msg : Broadcast crc) : Option (Message crc) :=
  msg.groundUpPacket?.bind Uplink.command?

end Broadcast

open Broadcast

/-- Each kind of what is published, against what it is made of. -/
structure Paired (issued : List (Broadcast crc)) : Prop where
  packed : Historically (Follows serialUpPacket? packed?) issued
  unpacked : Historically (Follows downMessage? unpacked?) issued
  carried : Historically (Follows antMessage? carried?) issued
  commanded : Historically (Follows upCommand? commanded?) issued

namespace Paired

variable {done : List (Broadcast crc)} {msg : Broadcast crc}

theorem nil : Paired ([] : List (Broadcast crc)) :=
  ⟨.nil, .nil, .nil, .nil⟩

theorem of_append {more : List (Broadcast crc)} (h : Paired (done ++ more)) : Paired done :=
  ⟨h.packed.of_append, h.unpacked.of_append, h.carried.of_append, h.commanded.of_append⟩

theorem concat (h : Paired done) (hpacked : Follows serialUpPacket? packed? done msg)
    (hunpacked : Follows downMessage? unpacked? done msg)
    (hcarried : Follows antMessage? carried? done msg)
    (hcommanded : Follows upCommand? commanded? done msg) : Paired (done ++ [msg]) :=
  ⟨h.packed.concat hpacked, h.unpacked.concat hunpacked, h.carried.concat hcarried,
    h.commanded.concat hcommanded⟩

/-- What is made of nothing can always be published. -/
theorem concat_plain (h : Paired done) (hpacked : msg.serialUpPacket? = none)
    (hunpacked : msg.downMessage? = none) (hcarried : msg.antMessage? = none)
    (hcommanded : msg.upCommand? = none) : Paired (done ++ [msg]) :=
  h.concat (Historically.follows_of_none hpacked) (Historically.follows_of_none hunpacked)
    (Historically.follows_of_none hcarried) (Historically.follows_of_none hcommanded)

end Paired

structure Made (seen : List (NodeSeen crc ε)) : Prop where
  packed : (issued seen).filterMap serialUpPacket? =
    (handledBy .serial seen).filterMap packed?
  unpacked : (issued seen).filterMap downMessage? =
    (handledBy .serial seen).filterMap unpacked?
  carried : (issued seen).filterMap antMessage? =
    (handledBy .antDecode seen).filterMap carried?
  commanded : (issued seen).filterMap upCommand? = (issued seen).filterMap commanded?

section Listeners

variable {seen shown : List (NodeSeen crc ε)}

def StartedOnce (seen : List (NodeSeen crc ε)) : Prop :=
  ∀ post ∈ seen.filterMap NodeSeen.posted?,
    post.subscribes .serial = false ∧ post.subscribes .antDecode = false

theorem issued_eq (seen : List (NodeSeen crc ε)) :
    issued seen = (seen.filterMap NodeSeen.posted?).filterMap Post.issued? := rfl

theorem filterMap_filter_of_isSome {α β : Type} {g : α → Option β} {p : α → Bool} (items : List α)
    (h : ∀ a, (g a).isSome → p a = true) : (items.filter p).filterMap g = items.filterMap g := by
  rw [List.filterMap_filter]
  congr 1
  funext a
  split
  · rfl
  · rename_i hp
    cases hg : g a with
    | none => rfl
    | some b => exact absurd (h a (by rw [hg]; rfl)) hp

theorem heard_serial (h : StartedOnce seen) {α : Type} {g : Broadcast crc → Option α}
    (hg : ∀ msg, (g msg).isSome → msg.topic ∈ [Topic.upMessage, Topic.serialDownPacket]) :
    (Bus.hear Broadcast.topic .serial [] (posted seen)).filterMap g =
      (issued seen).filterMap g := by
  have hposted : posted seen = [.subscribe .antDecode .downMessage] ++
      [Topic.upMessage, Topic.serialDownPacket].map (Post.subscribe .serial) ++
      seen.filterMap NodeSeen.posted? := rfl
  rw [hposted, Bus.hear_of_subscribed _ (by decide) (by simp [Post.subscribes])
    (fun post hpost => (h post hpost).1), issued_eq]
  exact filterMap_filter_of_isSome _ fun msg hmsg => decide_eq_true (hg msg hmsg)

theorem heard_antDecode (h : StartedOnce seen) {α : Type} {g : Broadcast crc → Option α}
    (hg : ∀ msg, (g msg).isSome → msg.topic ∈ [Topic.downMessage]) :
    (Bus.hear Broadcast.topic .antDecode [] (posted seen)).filterMap g =
      (issued seen).filterMap g := by
  have hposted : posted seen = [] ++ [Topic.downMessage].map (Post.subscribe .antDecode) ++
      ([Topic.upMessage, Topic.serialDownPacket].map (Post.subscribe .serial) ++
        seen.filterMap NodeSeen.posted?) := rfl
  rw [hposted, Bus.hear_of_subscribed _ (by decide) (by simp) ?_, issued_eq]
  · exact filterMap_filter_of_isSome _ fun msg hmsg => decide_eq_true (hg msg hmsg)
  · intro post hpost
    rcases List.mem_append.mp hpost with hstart | hlater
    · obtain ⟨t, _, rfl⟩ := List.mem_map.mp hstart
      rfl
    · exact (h post hlater).2

end Listeners

section Steps

variable {brotli : Brotli ε} {s s' : Node crc} {seen shown : List (NodeSeen crc ε)}

theorem issued_append (more : List (NodeSeen crc ε)) :
    issued (seen ++ more) =
      issued seen ++ (more.filterMap NodeSeen.posted?).filterMap Post.issued? := by
  rw [issued, posted_append, List.filterMap_append]
  rfl

theorem filterMap_issue (msgs : List (Broadcast crc)) :
    (msgs.map Post.issue : List (BroadcastPost crc)).filterMap Post.issued? = msgs := by
  exact filterMap_map_some fun _ => rfl

theorem issued_posted (msgs : List (Broadcast crc)) :
    issued (seen ++ (msgs.map Post.issue).map .posted) = issued seen ++ msgs := by
  rw [issued_append, filterMap_posted?_posted, filterMap_issue]

theorem startedOnce_posted (h : StartedOnce seen) (msgs : List (Broadcast crc)) :
    StartedOnce (seen ++ (msgs.map Post.issue).map .posted) := by
  intro post hmem
  rw [List.filterMap_append, filterMap_posted?_posted] at hmem
  rcases List.mem_append.mp hmem with hold | hnew
  · exact h post hold
  · obtain ⟨msg, _, rfl⟩ := List.mem_map.mp hnew
    exact ⟨rfl, rfl⟩

section Reacted

variable (listener : Listener) (msg : Broadcast crc) (msgs : List (Broadcast crc))

theorem issued_reacted :
    issued (seen ++ .handled listener msg :: (msgs.map Post.issue).map .posted) =
      issued seen ++ msgs := by
  rw [← List.singleton_append, ← List.append_assoc, issued_posted, issued, posted_handled]
  rfl

theorem startedOnce_reacted (h : StartedOnce seen) :
    StartedOnce (seen ++ .handled listener msg :: (msgs.map Post.issue).map .posted) := by
  rw [← List.singleton_append, ← List.append_assoc]
  apply startedOnce_posted
  intro post hmem
  rw [List.filterMap_append] at hmem
  rcases List.mem_append.mp hmem with hold | hnew
  · exact h post hold
  · cases hnew

theorem handledBy_reacted (other : Listener) :
    handledBy other (seen ++ .handled listener msg :: (msgs.map Post.issue).map .posted) =
      handledBy other seen ++ if listener = other then [msg] else [] := by
  rw [← List.singleton_append, ← List.append_assoc, handledBy_append, handledBy_posted,
    List.append_nil, handledBy_append]
  congr 1
  by_cases hother : listener = other
  · simp [handledBy, NodeSeen.handled?, hother]
  · simp [handledBy, NodeSeen.handled?, hother]

end Reacted

theorem ComesIn.made {msgs : List (Broadcast crc)} (h : ComesIn msgs) :
    msgs.filterMap serialUpPacket? = [] ∧ msgs.filterMap downMessage? = [] ∧
      msgs.filterMap antMessage? = [] ∧ msgs.filterMap upCommand? = msgs.filterMap commanded? := by
  cases h with
  | upMessage msg => exact ⟨rfl, rfl, rfl, rfl⟩
  | serialDownPacket pkt => exact ⟨rfl, rfl, rfl, rfl⟩
  | log log => exact ⟨rfl, rfl, rfl, rfl⟩
  | datagram pkt =>
      unfold Uplink.publishes
      cases hcommand : (Uplink.command? pkt : Option (Message crc)) with
      | none =>
          refine ⟨rfl, rfl, rfl, ?_⟩
          simp [upCommand?, commanded?, groundUpPacket?, hcommand]
      | some msg =>
          have hsource : commanded? (.groundUpPacket pkt) = some msg := hcommand
          refine ⟨rfl, rfl, rfl, ?_⟩
          rw [List.filterMap_cons_some hsource]
          rfl

theorem ComesIn.paired {msgs : List (Broadcast crc)} (h : ComesIn msgs)
    {done : List (Broadcast crc)} (hpaired : Paired done)
    (hcommanded : done.filterMap upCommand? = done.filterMap commanded?) :
    Paired (done ++ msgs) := by
  cases h with
  | upMessage msg => exact hpaired.concat_plain rfl rfl rfl rfl
  | serialDownPacket pkt => exact hpaired.concat_plain rfl rfl rfl rfl
  | log log => exact hpaired.concat_plain rfl rfl rfl rfl
  | datagram pkt =>
      have hfirst : Paired (done ++ [.groundUpPacket pkt]) :=
        hpaired.concat_plain rfl rfl rfl rfl
      unfold Uplink.publishes
      cases hcommand : (Uplink.command? pkt : Option (Message crc)) with
      | none => exact hfirst
      | some msg =>
          rw [← List.singleton_append, ← List.append_assoc]
          refine hfirst.concat (Historically.follows_of_none rfl) (Historically.follows_of_none rfl)
            (Historically.follows_of_none rfl) ?_
          intro other hother
          cases hother
          have hsource : commanded? (.groundUpPacket pkt) = some msg := hcommand
          rw [List.filterMap_append, List.filterMap_append, hcommanded,
            List.filterMap_cons_some hsource]
          simp [upCommand?]

theorem Serial.publishes_eq (msg : Broadcast crc) :
    (Serial.publishes msg).filterMap serialUpPacket? = (packed? msg).toList ∧
      (Serial.publishes msg).filterMap downMessage? = (unpacked? msg).toList ∧
      (Serial.publishes msg).filterMap antMessage? = [] ∧
      (Serial.publishes msg).filterMap upCommand? = [] ∧
      (Serial.publishes msg).filterMap commanded? = [] := by
  cases msg with
  | upMessage msg =>
      simp only [Serial.publishes, Serial.handleUpMessage_eq]
      exact ⟨rfl, rfl, rfl, rfl, rfl⟩
  | serialDownPacket pkt =>
      have hunpacked : unpacked? (.serialDownPacket pkt : Broadcast crc) =
          Serial.handleDownPacket pkt := rfl
      rw [hunpacked]
      simp only [Serial.publishes]
      cases Serial.handleDownPacket pkt with
      | none => exact ⟨rfl, rfl, rfl, rfl, rfl⟩
      | some unpacked =>
          dsimp only
          split
          · exact ⟨rfl, rfl, rfl, rfl, rfl⟩
          · exact ⟨rfl, rfl, rfl, rfl, rfl⟩
  | _ => exact ⟨rfl, rfl, rfl, rfl, rfl⟩

theorem AntDecode.publishes_eq (msg : Broadcast crc) :
    AntDecode.publishes msg = ((carried? msg).map Broadcast.antMessage).toList := by
  cases msg with
  | downMessage msg =>
      have hcarried : carried? (.downMessage msg : Broadcast crc) = AntDecode.handle msg := rfl
      rw [hcarried]
      simp only [AntDecode.publishes]
      cases AntDecode.handle msg <;> rfl
  | _ => rfl

theorem Serial.paired {done handled : List (Broadcast crc)} {msg : Broadcast crc}
    (rest : List (Broadcast crc)) (hpaired : Paired done)
    (hpacked : done.filterMap serialUpPacket? = handled.filterMap packed?)
    (hunpacked : done.filterMap downMessage? = handled.filterMap unpacked?)
    (hpackable : (handled ++ msg :: rest).filterMap packed? = done.filterMap packed?)
    (hunpackable : (handled ++ msg :: rest).filterMap unpacked? = done.filterMap unpacked?) :
    Paired (done ++ Serial.publishes msg) := by
  cases msg with
  | upMessage msg =>
      simp only [Serial.publishes, Serial.handleUpMessage_eq]
      refine hpaired.concat ?_ (Historically.follows_of_none rfl)
        (Historically.follows_of_none rfl) (Historically.follows_of_none rfl)
      intro pkt hpkt
      cases hpkt
      exact Historically.follows_next hpacked hpackable rfl
  | serialDownPacket pkt =>
      simp only [Serial.publishes]
      cases hmsg : (Serial.handleDownPacket pkt : Option (Message crc)) with
      | none => simpa using hpaired
      | some unpacked =>
          have hfirst : Paired (done ++ [.downMessage unpacked]) := by
            refine hpaired.concat (Historically.follows_of_none rfl) ?_
              (Historically.follows_of_none rfl) (Historically.follows_of_none rfl)
            intro other hother
            cases hother
            exact Historically.follows_next hunpacked hunpackable hmsg
          dsimp only
          split
          · rw [← List.singleton_append, ← List.append_assoc]
            exact hfirst.concat_plain rfl rfl rfl rfl
          · exact hfirst
  | _ => simpa [Serial.publishes] using hpaired

theorem AntDecode.paired {done handled : List (Broadcast crc)} {msg : Broadcast crc}
    (rest : List (Broadcast crc)) (hpaired : Paired done)
    (hcarried : done.filterMap antMessage? = handled.filterMap carried?)
    (hcarriable : (handled ++ msg :: rest).filterMap carried? = done.filterMap carried?) :
    Paired (done ++ AntDecode.publishes msg) := by
  rw [AntDecode.publishes_eq]
  cases hmsg : carried? msg with
  | none => simpa using hpaired
  | some pkt =>
      refine hpaired.concat (Historically.follows_of_none rfl) (Historically.follows_of_none rfl) ?_
        (Historically.follows_of_none rfl)
      intro other hother
      cases hother
      exact Historically.follows_next hcarried hcarriable hmsg

structure PairingKept (s : Node crc) (seen : List (NodeSeen crc ε)) : Prop where
  bus : BusKept s seen
  started : StartedOnce seen
  made : Made seen
  paired : Paired (issued seen)

theorem pairingKept_default :
    PairingKept (Node.default : Node crc) ([] : List (NodeSeen crc ε)) where
  bus := busKept_default
  started := by
    intro post hmem
    cases hmem
  made := ⟨rfl, rfl, rfl, rfl⟩
  paired := .nil

theorem filterMap_one {α β : Type} (g : α → Option β) (a : α) :
    [a].filterMap g = (g a).toList := by
  cases hg : g a with
  | none => rw [List.filterMap_cons_none hg]; rfl
  | some b => rw [List.filterMap_cons_some hg]; rfl

theorem isSome_packed? (msg : Broadcast crc) (h : (packed? msg).isSome) :
    msg.topic ∈ [Topic.upMessage, Topic.serialDownPacket] := by
  cases msg <;> first | exact absurd h Bool.false_ne_true | simp [topic]

theorem isSome_unpacked? (msg : Broadcast crc) (h : (unpacked? msg).isSome) :
    msg.topic ∈ [Topic.upMessage, Topic.serialDownPacket] := by
  cases msg <;> first | exact absurd h Bool.false_ne_true | simp [topic]

theorem isSome_carried? (msg : Broadcast crc) (h : (carried? msg).isSome) :
    msg.topic ∈ [Topic.downMessage] := by
  cases msg <;> first | exact absurd h Bool.false_ne_true | simp [topic]

theorem PairingKept.serial (h : PairingKept s seen) {msg : Broadcast crc}
    {bus : BroadcastBus crc} (htake : s.bus.take .serial = some (msg, bus))
    (hbus : BusKept s' (seen ++ .handled .serial msg ::
      ((Serial.publishes msg).map Post.issue).map .posted)) :
    PairingKept s' (seen ++ .handled .serial msg ::
      ((Serial.publishes msg).map Post.issue).map .posted) := by
  obtain ⟨rest, hheard⟩ := h.bus.next htake
  obtain ⟨hpacked, hunpacked, hcarried, hcommand, hcommanded⟩ := Serial.publishes_eq msg
  refine ⟨hbus, startedOnce_reacted _ _ _ h.started, ⟨?_, ?_, ?_, ?_⟩, ?_⟩
  · rw [issued_reacted, handledBy_reacted, if_pos rfl, List.filterMap_append,
      List.filterMap_append, hpacked, h.made.packed, filterMap_one]
  · rw [issued_reacted, handledBy_reacted, if_pos rfl, List.filterMap_append,
      List.filterMap_append, hunpacked, h.made.unpacked, filterMap_one]
  · rw [issued_reacted, handledBy_reacted, if_neg (by simp), List.filterMap_append, hcarried,
      List.append_nil, List.append_nil]
    exact h.made.carried
  · rw [issued_reacted, List.filterMap_append, List.filterMap_append, hcommand, hcommanded,
      List.append_nil, List.append_nil]
    exact h.made.commanded
  · rw [issued_reacted]
    refine Serial.paired rest h.paired h.made.packed h.made.unpacked ?_ ?_
    · rw [hheard]
      exact heard_serial h.started isSome_packed?
    · rw [hheard]
      exact heard_serial h.started isSome_unpacked?

theorem PairingKept.antDecode (h : PairingKept s seen) {msg : Broadcast crc}
    {bus : BroadcastBus crc} (htake : s.bus.take .antDecode = some (msg, bus))
    (hbus : BusKept s' (seen ++ .handled .antDecode msg ::
      ((AntDecode.publishes msg).map Post.issue).map .posted)) :
    PairingKept s' (seen ++ .handled .antDecode msg ::
      ((AntDecode.publishes msg).map Post.issue).map .posted) := by
  obtain ⟨rest, hheard⟩ := h.bus.next htake
  have hnew (α : Type) (g : Broadcast crc → Option α) (hg : ∀ pkt, g (.antMessage pkt) = none) :
      (AntDecode.publishes msg).filterMap g = [] := by
    rw [AntDecode.publishes_eq]
    cases carried? msg with
    | none => rfl
    | some pkt => exact List.filterMap_cons_none (hg pkt)
  refine ⟨hbus, startedOnce_reacted _ _ _ h.started, ⟨?_, ?_, ?_, ?_⟩, ?_⟩
  · rw [issued_reacted, handledBy_reacted, if_neg (by simp), List.filterMap_append,
      hnew _ _ fun _ => rfl, List.append_nil, List.append_nil]
    exact h.made.packed
  · rw [issued_reacted, handledBy_reacted, if_neg (by simp), List.filterMap_append,
      hnew _ _ fun _ => rfl, List.append_nil, List.append_nil]
    exact h.made.unpacked
  · rw [issued_reacted, handledBy_reacted, if_pos rfl, List.filterMap_append,
      List.filterMap_append, h.made.carried, filterMap_one, AntDecode.publishes_eq]
    cases carried? msg <;> rfl
  · rw [issued_reacted, List.filterMap_append, List.filterMap_append, hnew _ _ fun _ => rfl,
      hnew _ _ fun _ => rfl, List.append_nil, List.append_nil]
    exact h.made.commanded
  · rw [issued_reacted]
    refine AntDecode.paired rest h.paired h.made.carried ?_
    rw [hheard]
    exact heard_antDecode h.started isSome_carried?

theorem PairingKept.quiet (h : PairingKept s seen) (hbus : BusKept s' (seen ++ shown))
    (hstarted : StartedOnce (seen ++ shown)) (hissued : issued (seen ++ shown) = issued seen)
    (hserial : handledBy .serial shown = []) (hantDecode : handledBy .antDecode shown = []) :
    PairingKept s' (seen ++ shown) where
  bus := hbus
  started := hstarted
  made := by
    refine ⟨?_, ?_, ?_, ?_⟩
    · rw [hissued, handledBy_append, hserial, List.append_nil]
      exact h.made.packed
    · rw [hissued, handledBy_append, hserial, List.append_nil]
      exact h.made.unpacked
    · rw [hissued, handledBy_append, hantDecode, List.append_nil]
      exact h.made.carried
    · rw [hissued]
      exact h.made.commanded
  paired := by
    rw [hissued]
    exact h.paired

theorem PairingKept.moved (h : PairingKept s seen) (hmoved : NodeMoved brotli s s' shown) :
    PairingKept s' (seen ++ shown) := by
  have hbus := h.bus.moved hmoved
  cases hmoved with
  | @published msgs hcomes =>
      obtain ⟨hpacked, hunpacked, hcarried, hcommanded⟩ := hcomes.made
      refine ⟨hbus, startedOnce_posted h.started msgs, ⟨?_, ?_, ?_, ?_⟩, ?_⟩
      · rw [issued_posted, handledBy_append, handledBy_posted, List.append_nil,
          List.filterMap_append, hpacked, List.append_nil]
        exact h.made.packed
      · rw [issued_posted, handledBy_append, handledBy_posted, List.append_nil,
          List.filterMap_append, hunpacked, List.append_nil]
        exact h.made.unpacked
      · rw [issued_posted, handledBy_append, handledBy_posted, List.append_nil,
          List.filterMap_append, hcarried, List.append_nil]
        exact h.made.carried
      · rw [issued_posted, List.filterMap_append, List.filterMap_append, hcommanded,
          h.made.commanded]
      · rw [issued_posted]
        exact hcomes.paired h.paired h.made.commanded
  | forwarded _ =>
      exact h.quiet hbus (by simpa using h.started) (by rw [List.append_nil]) rfl rfl
  | @reacted listener msg bus htake hlistener =>
      cases listener with
      | serial => exact h.serial htake hbus
      | antDecode => exact h.antDecode htake hbus
      | downlink address => exact absurd rfl (hlistener address)
  | @finished address actor topics more _ _ =>
      refine h.quiet hbus ?_ ?_ ?_ ?_
      · intro post hmem
        rw [List.filterMap_append, List.filterMap_append, filterMap_posted?_posted,
          filterMap_posted?_downlink, List.append_nil] at hmem
        rcases List.mem_append.mp hmem with hold | hnew
        · exact h.started post hold
        · obtain ⟨t, _, rfl⟩ := List.mem_map.mp hnew
          exact ⟨rfl, rfl⟩
      · rw [issued_append, List.filterMap_append, filterMap_posted?_posted,
          filterMap_posted?_downlink, List.append_nil, List.filterMap_map]
        have hnone : Post.issued? ∘
            (Post.subscribe (Listener.downlink address) : Topic → BroadcastPost crc) =
              fun _ : Topic => none := rfl
        rw [hnone, List.filterMap_none, List.append_nil]
      · rw [handledBy_append, handledBy_posted, handledBy_downlink, List.append_nil]
      · rw [handledBy_append, handledBy_posted, handledBy_downlink, List.append_nil]
  | @echoed address msg bus actor more _ _ _ =>
      have hposted : (.handled (.downlink address) msg :: more.map (.downlink address) :
          List (NodeSeen crc ε)).filterMap NodeSeen.posted? = [] := by
        rw [List.filterMap_cons_none rfl, filterMap_posted?_downlink]
      refine h.quiet hbus ?_ ?_ ?_ ?_
      · intro post hmem
        rw [List.filterMap_append, hposted, List.append_nil] at hmem
        exact h.started post hmem
      · rw [issued_append, hposted]
        exact List.append_nil _
      · exact handledBy_downlink _ _ _
      · exact handledBy_downlink _ _ _
  | restarted _ =>
      exact h.quiet hbus (by simpa using h.started) (by rw [List.append_nil]) rfl rfl

end Steps

section Runs

variable (brotli : Brotli ε)
  {visits : List (Visit (Node crc) (NodeAction crc) (NodeSeen crc ε))} {s : Node crc}
  {seen : List (NodeSeen crc ε)}

theorem pairingKept_of_run (hrun : (Node.machine crc brotli).Run visits s seen) :
    PairingKept s seen :=
  (hrun.always PairingKept pairingKept_default fun h hnext =>
    h.moved (nodeMoved_of_next hnext)).1

theorem PairingKept.heard (h : PairingKept s seen) {listener : Listener}
    (hqueue : s.bus.queue = []) (hmailbox : s.bus.mailbox listener = []) :
    handledBy listener seen = Bus.hear Broadcast.topic listener [] (posted seen) := by
  rw [← h.bus.heard listener, hqueue, hmailbox]
  exact (List.append_nil _).symm

/-- At each point of the order of publication, what has been packed, unpacked and
taken out is what had been published to make it of, in the same order; once all
is delivered and handled nothing is missing. -/
theorem published_in_order (hrun : (Node.machine crc brotli).Run visits s seen) :
    (∀ front back, issued seen = front ++ back →
      front.filterMap serialUpPacket? <+: front.filterMap packed? ∧
      front.filterMap downMessage? <+: front.filterMap unpacked? ∧
      front.filterMap antMessage? <+: front.filterMap carried? ∧
      front.filterMap upCommand? <+: front.filterMap commanded?) ∧
    (issued seen).filterMap upCommand? = (issued seen).filterMap commanded? ∧
    (s.bus.queue = [] → s.bus.mailbox .serial = [] →
      (issued seen).filterMap serialUpPacket? = (issued seen).filterMap packed? ∧
      (issued seen).filterMap downMessage? = (issued seen).filterMap unpacked?) ∧
    (s.bus.queue = [] → s.bus.mailbox .antDecode = [] →
      (issued seen).filterMap antMessage? = (issued seen).filterMap carried?) := by
  have hkept := pairingKept_of_run brotli hrun
  refine ⟨?_, hkept.made.commanded, ?_, ?_⟩
  · intro front back hsplit
    have hpaired := hkept.paired
    rw [hsplit] at hpaired
    have hfront := hpaired.of_append
    exact ⟨hfront.packed.prefix_of_follows, hfront.unpacked.prefix_of_follows,
      hfront.carried.prefix_of_follows, hfront.commanded.prefix_of_follows⟩
  · intro hqueue hmailbox
    have hheard := hkept.heard hqueue hmailbox
    refine ⟨?_, ?_⟩
    · rw [hkept.made.packed, hheard]
      exact heard_serial hkept.started isSome_packed?
    · rw [hkept.made.unpacked, hheard]
      exact heard_serial hkept.started isSome_unpacked?
  · intro hqueue hmailbox
    rw [hkept.made.carried, hkept.heard hqueue hmailbox]
    exact heard_antDecode hkept.started isSome_carried?

end Runs

def pingEchoed : List (NodeAction (StandardCRC crc8Smbus)) :=
  [.downlink 0 (.finish 0 true)] ++ List.replicate 10 .forward ++
    [.upMessage ping, .forward, .serial, .forward, .downlink 0 .handle,
      .downlink 0 (.finish 0 true), .downlink 0 .handle, .downlink 0 (.finish 0 true)]

set_option maxRecDepth 100000 in
theorem published_in_order_ping : ∃ visits s seen,
    (Node.machine (StandardCRC crc8Smbus) Brotli.stored).Run visits s seen ∧
      issued seen = [.upMessage ping, .serialUpPacket (wire ping)] ∧
      (issued seen).filterMap serialUpPacket? = (issued seen).filterMap packed? := by
  have hrun := Machine.Run.start.follow
    (show (Node.machine _ Brotli.stored).follow [] _ [] pingEchoed = some (_, _, _) from rfl)
  exact ⟨_, _, _, hrun, rfl, ((published_in_order _ hrun).2.2.1 rfl rfl).1⟩

end AntRelay.Runtime
