import AntRelay.Runtime.Pairing
import Mathlib.Data.List.TakeWhile

namespace AntRelay.Runtime
open AntRelay.Base AntRelay.Base.Bincode AntRelay.Format

variable {crc : Checksum} {ε : Type}

def EchoOf (brotli : Brotli ε) (msg : Broadcast crc) (packet : Bytes) : Prop :=
  ∃ d, DownlinkActor.extract msg = some d ∧
    brotli.compress (serialize Downlink.codec d) = .ok packet

namespace Wait

def sending? : Wait → Option Bytes
  | .send _ packet => some packet
  | _ => none

end Wait

def SubscribedOnce (address : Nat) (actor : DownlinkActor) (posts : List (BroadcastPost crc)) :
    Prop :=
  if actor.subscribed then
    ∃ before after, posts =
        before ++ DownlinkActor.topics.map (.subscribe (.downlink address)) ++ after ∧
      (∀ post ∈ before, post.subscribes (.downlink address) = false) ∧
      ∀ post ∈ after, post.subscribes (.downlink address) = false
  else ∀ post ∈ posts, post.subscribes (.downlink address) = false

def Accounts (brotli : Brotli ε) (actor : DownlinkActor) (handled : List (Broadcast crc))
    (shown : List (DownlinkSeen ε)) : Prop :=
  ∃ (done : List (Broadcast crc × Fate ε)) (inHand : List (Broadcast crc × Bytes)),
    handled = done.map Prod.fst ++ inHand.map Prod.fst ∧
    shown.filterMap DownlinkSeen.fate? = done.map Prod.snd ∧
    (∀ msg socket packet, (msg, .sent socket packet) ∈ done → EchoOf brotli msg packet) ∧
    actor.waits.filterMap Wait.sending? = inHand.map Prod.snd ∧
    ∀ msg packet, (msg, packet) ∈ inHand → EchoOf brotli msg packet

structure Echoing (brotli : Brotli ε) (address : Nat) (s : Node crc)
    (seen : List (NodeSeen crc ε)) : Prop where
  subscribed : SubscribedOnce address (s.downlinks address) (posted seen)
  sound : (s.downlinks address).Sound (shownBy address seen)
  accounts : Accounts brotli (s.downlinks address) (handledBy (.downlink address) seen)
    (shownBy address seen)

theorem SubscribedOnce.append {address : Nat} {actor : DownlinkActor}
    {posts more : List (BroadcastPost crc)} (h : SubscribedOnce address actor posts)
    (hmore : ∀ post ∈ more, post.subscribes (.downlink address) = false) :
    SubscribedOnce address actor (posts ++ more) := by
  unfold SubscribedOnce at *
  by_cases hsubscribed : actor.subscribed = true
  · rw [if_pos hsubscribed] at h ⊢
    obtain ⟨before, after, rfl, hbefore, hafter⟩ := h
    refine ⟨before, after ++ more, by simp, hbefore, ?_⟩
    rw [List.forall_mem_append]
    exact ⟨hafter, hmore⟩
  · rw [if_neg hsubscribed] at h ⊢
    rw [List.forall_mem_append]
    exact ⟨h, hmore⟩

theorem SubscribedOnce.same {address : Nat} {actor actor' : DownlinkActor}
    {posts : List (BroadcastPost crc)} (h : SubscribedOnce address actor posts)
    (hsame : actor'.subscribed = actor.subscribed) : SubscribedOnce address actor' posts := by
  unfold SubscribedOnce at *
  rw [hsame]
  exact h

theorem SubscribedOnce.finished {address : Nat} {actor actor' : DownlinkActor}
    {posts : List (BroadcastPost crc)} (h : SubscribedOnce address actor posts)
    {topics : List Topic} {shown : List (DownlinkSeen ε)}
    (hfinished : actor.Finished actor' topics shown) :
    SubscribedOnce address actor' (posts ++ topics.map (.subscribe (.downlink address))) := by
  cases hfinished with
  | connected _ =>
      by_cases hsubscribed : actor.subscribed = true
      · rw [if_pos hsubscribed, List.map_nil, List.append_nil]
        exact h.same hsubscribed.symm
      · rw [if_neg hsubscribed]
        rw [SubscribedOnce, if_neg hsubscribed] at h
        rw [SubscribedOnce, if_pos rfl]
        exact ⟨posts, [], (List.append_nil _).symm, h, by simp⟩
  | _ =>
      rw [List.map_nil, List.append_nil]
      exact h.same rfl

theorem SubscribedOnce.extracts {address : Nat} {actor : DownlinkActor}
    {posts : List (BroadcastPost crc)} (h : SubscribedOnce address actor posts)
    {msg : Broadcast crc} (hmem : msg ∈ Bus.hear Broadcast.topic (.downlink address) [] posts) :
    ∃ d, DownlinkActor.extract msg = some d := by
  have htopic : msg.topic ∈ DownlinkActor.topics := by
    rcases Bus.topic_of_mem_hear _ hmem with hnone | hsubscribe
    · cases hnone
    · unfold SubscribedOnce at h
      split at h
      · obtain ⟨before, after, rfl, hbefore, hafter⟩ := h
        rw [List.mem_append, List.mem_append] at hsubscribe
        rcases hsubscribe with (hmem | hmem) | hmem
        · have hno := hbefore _ hmem
          simp [Post.subscribes] at hno
        · obtain ⟨t, ht, heq⟩ := List.mem_map.mp hmem
          cases heq
          exact ht
        · have hno := hafter _ hmem
          simp [Post.subscribes] at hno
      · have hno := h _ hsubscribe
        simp [Post.subscribes] at hno
  cases msg with
  | ackMessage msg => exact absurd htopic (show Topic.ackMessage ∉ DownlinkActor.topics by decide)
  | antMessage pkt => exact absurd htopic (show Topic.antMessage ∉ DownlinkActor.topics by decide)
  | _ => exact ⟨_, rfl⟩

section Accounts

variable {brotli : Brotli ε} {actor actor' : DownlinkActor} {handled : List (Broadcast crc)}
  {shown more : List (DownlinkSeen ε)}

theorem Accounts.quiet (h : Accounts brotli actor handled shown)
    (hwaits : actor'.waits.filterMap Wait.sending? = actor.waits.filterMap Wait.sending?)
    (hmore : more.filterMap DownlinkSeen.fate? = []) :
    Accounts brotli actor' handled (shown ++ more) := by
  obtain ⟨done, inHand, hhandled, hfates, hsent, hsending, hinHand⟩ := h
  refine ⟨done, inHand, hhandled, ?_, hsent, ?_, hinHand⟩
  · rw [List.filterMap_append, hmore, List.append_nil]
    exact hfates
  · rw [hwaits]
    exact hsending

theorem sending?_of_plain {waits : List Wait}
    (h : waits ∈ [[], [.socket], [.sleep], [.sleep, .socket]]) :
    waits.filterMap Wait.sending? = [] := by
  simp only [List.mem_cons, List.not_mem_nil, or_false] at h
  rcases h with rfl | rfl | rfl | rfl <;> rfl

theorem Accounts.dealt (h : Accounts brotli actor handled shown) {socket : Nat} {packet : Bytes}
    (hwaits : actor.waits = [.send socket packet]) (hrest : actor'.waits = []) {fate : Fate ε}
    (hfate : fate = .sent socket packet ∨ fate = .failed socket) :
    Accounts brotli actor' handled (shown ++ [.fate fate]) := by
  obtain ⟨done, inHand, hhandled, hfates, hsent, hsending, hinHand⟩ := h
  rw [hwaits] at hsending
  obtain ⟨⟨msg, packet'⟩, rest, rfl, hpacket, hnil⟩ := List.map_eq_cons_iff.mp hsending.symm
  have hrest' : rest = [] := List.map_eq_nil_iff.mp hnil
  subst hrest'
  have hpacket : packet' = packet := hpacket
  subst hpacket
  refine ⟨done ++ [(msg, fate)], [], ?_, ?_, ?_, ?_, ?_⟩
  · simp [hhandled]
  · rw [List.filterMap_append, hfates, List.map_append]
    rfl
  · intro other socket' packet hmem
    rcases List.mem_append.mp hmem with hold | hnew
    · exact hsent other socket' packet hold
    · rw [List.mem_singleton] at hnew
      cases hnew
      rcases hfate with hsame | hother
      · cases hsame
        exact hinHand _ _ List.mem_cons_self
      · cases hother
  · rw [hrest]
    rfl
  · intro other packet hmem
    cases hmem

theorem Accounts.finished (h : Accounts brotli actor handled shown) (hwaits : actor.WaitsFor)
    {topics : List Topic} (hfinished : actor.Finished actor' topics more) :
    Accounts brotli actor' handled (shown ++ more) := by
  have hplain {index : Nat} {wait : Wait} (hwait : actor.waits[index]? = some wait)
      (hsend : ∀ socket packet, wait ≠ .send socket packet) :
      (actor.waits.eraseIdx index).filterMap Wait.sending? =
        actor.waits.filterMap Wait.sending? := by
    obtain ⟨hrest, _⟩ := DownlinkActor.waits_eraseIdx hwaits hwait hsend
    rw [sending?_of_plain hrest]
    rcases hwaits with hmem | ⟨socket, packet, hsending, _, _⟩
    · rw [sending?_of_plain hmem]
    · rw [hsending] at hwait
      exact absurd (List.mem_singleton.mp (List.mem_of_getElem? hwait)) (hsend socket packet)
  cases hfinished with
  | connected hwait => exact h.quiet (hplain hwait (by simp)) rfl
  | refused hwait => exact h.quiet (hplain hwait (by simp)) rfl
  | slept hwait => exact h.quiet (hplain hwait (by simp)) rfl
  | sent hwait =>
      obtain ⟨hsending, hrest, _⟩ := DownlinkActor.waits_send hwaits hwait
      exact h.dealt hsending hrest (.inl rfl)
  | failed hwait =>
      obtain ⟨hsending, hrest, _⟩ := DownlinkActor.waits_send hwaits hwait
      exact h.dealt hsending hrest (.inr rfl)

theorem Accounts.took (h : Accounts brotli actor handled shown) (hready : actor.ready = true)
    {msg : Broadcast crc} {d : Downlink crc} (hextract : DownlinkActor.extract msg = some d)
    (hactor : (∃ socket packet, actor'.waits = [.send socket packet] ∧ more = [] ∧
        brotli.compress (serialize Downlink.codec d) = .ok packet) ∨
      ∃ err, actor' = actor ∧ more = [.fate (.notCompressed err)]) :
    Accounts brotli actor' (handled ++ [msg]) (shown ++ more) := by
  obtain ⟨done, inHand, hhandled, hfates, hsent, hsending, hinHand⟩ := h
  simp only [DownlinkActor.ready, Bool.and_eq_true, List.isEmpty_iff] at hready
  rw [hready.1] at hsending
  have hnone : inHand = [] := List.map_eq_nil_iff.mp hsending.symm
  subst hnone
  rcases hactor with ⟨socket, packet, hwaits, rfl, hcompress⟩ | ⟨err, rfl, rfl⟩
  · refine ⟨done, [(msg, packet)], ?_, by simpa using hfates, hsent, ?_, ?_⟩
    · simp [hhandled]
    · rw [hwaits]
      rfl
    · intro other packet' hmem
      cases List.mem_singleton.mp hmem
      exact ⟨d, hextract, hcompress⟩
  · refine ⟨done ++ [(msg, .notCompressed err)], [], ?_, ?_, ?_, ?_, ?_⟩
    · simp [hhandled]
    · rw [List.filterMap_append, hfates, List.map_append]
      rfl
    · intro other socket packet hmem
      rcases List.mem_append.mp hmem with hold | hnew
      · exact hsent other socket packet hold
      · cases List.mem_singleton.mp hnew
    · rw [hready.1]
      rfl
    · intro other packet hmem
      cases hmem

theorem Accounts.restart (h : Accounts brotli actor handled shown) (hwaits : actor.WaitsFor)
    (hrestart : actor.restart = some actor') : Accounts brotli actor' handled shown := by
  unfold DownlinkActor.restart at hrestart
  split at hrestart
  · rename_i hstopping
    cases hrestart
    have hplain : actor.waits.filterMap Wait.sending? = [] := by
      rcases hwaits with hmem | ⟨_, _, _, _, hrunning⟩
      · exact sending?_of_plain hmem
      · rw [hrunning] at hstopping
        cases hstopping
    rw [← List.append_nil shown]
    refine h.quiet ?_ rfl
    rw [hplain]
    rfl
  · cases hrestart

end Accounts

section Steps

variable {brotli : Brotli ε} {s s' : Node crc} {seen shown : List (NodeSeen crc ε)} {address : Nat}

theorem echoing_default : Echoing brotli address (Node.default : Node crc) [] where
  subscribed := by
    have hnone : SubscribedOnce address DownlinkActor.default
        (Listener.start : List (BroadcastPost crc)) := by
      intro post hmem
      simp only [Listener.start, List.mem_cons, List.not_mem_nil, or_false] at hmem
      rcases hmem with rfl | rfl | rfl <;> rfl
    exact hnone
  sound := DownlinkActor.sound_default
  accounts := ⟨[], [], rfl, rfl, by simp, rfl, by simp⟩

theorem Echoing.apart (h : Echoing brotli address s seen)
    (hactor : s'.downlinks address = s.downlinks address)
    (hposts : ∀ post ∈ shown.filterMap NodeSeen.posted?,
      post.subscribes (.downlink address) = false)
    (hhandled : handledBy (.downlink address) shown = []) (hshown : shownBy address shown = []) :
    Echoing brotli address s' (seen ++ shown) where
  subscribed := by
    rw [hactor, posted_append]
    exact h.subscribed.append hposts
  sound := by
    rw [hactor, shownBy_append, hshown, List.append_nil]
    exact h.sound
  accounts := by
    rw [hactor, shownBy_append, hshown, handledBy_append, hhandled, List.append_nil,
      List.append_nil]
    exact h.accounts

theorem Echoing.moved (h : Echoing brotli address s seen) (hbus : BusKept s seen)
    (hmoved : NodeMoved brotli s s' shown) : Echoing brotli address s' (seen ++ shown) := by
  cases hmoved with
  | published _ =>
      refine h.apart rfl ?_ (handledBy_posted _ _) (shownBy_posted _ _)
      rw [filterMap_posted?_posted]
      exact List.forall_mem_map.mpr fun _ _ => rfl
  | forwarded _ => exact h.apart rfl (by simp) rfl rfl
  | @reacted listener msg bus _ hlistener =>
      refine h.apart rfl ?_ ?_ (shownBy_posted _ _)
      · rw [List.filterMap_cons_none rfl, filterMap_posted?_posted]
        exact List.forall_mem_map.mpr fun _ _ => rfl
      · have hnone : NodeSeen.handled? (.downlink address)
            (.handled listener msg : NodeSeen crc ε) = none := if_neg (hlistener address)
        rw [handledBy, List.filterMap_cons_none hnone]
        exact handledBy_posted _ _
  | @finished other actor topics more hrunning hfinished =>
      by_cases hother : other = address
      · subst hother
        refine ⟨?_, ?_, ?_⟩
        · rw [posted_append, List.filterMap_append, filterMap_posted?_posted,
            filterMap_posted?_downlink, List.append_nil]
          simp only [Function.update_self]
          exact h.subscribed.finished hfinished
        · rw [shownBy_append, shownBy_append, shownBy_posted, shownBy_downlink, if_pos rfl]
          simp only [Function.update_self]
          exact h.sound.finished hrunning hfinished
        · rw [shownBy_append, shownBy_append, shownBy_posted, shownBy_downlink, if_pos rfl,
            handledBy_append, handledBy_append, handledBy_posted, handledBy_downlink,
            List.append_nil, List.append_nil]
          simp only [Function.update_self]
          exact h.accounts.finished h.sound.waits hfinished
      · refine h.apart (Function.update_of_ne (Ne.symm hother) _ _) ?_ ?_ ?_
        · rw [List.filterMap_append, filterMap_posted?_posted, filterMap_posted?_downlink,
            List.append_nil]
          refine List.forall_mem_map.mpr fun t _ => ?_
          simp [Post.subscribes, hother]
        · rw [handledBy_append, handledBy_posted, handledBy_downlink]
          rfl
        · rw [shownBy_append, shownBy_posted, shownBy_downlink, if_neg hother]
          rfl
  | @echoed other msg bus actor more hready htake hactor =>
      have hposted : (.handled (.downlink other) msg :: more.map (.downlink other) :
          List (NodeSeen crc ε)).filterMap NodeSeen.posted? = [] := by
        rw [List.filterMap_cons_none rfl, filterMap_posted?_downlink]
      by_cases hother : other = address
      · subst hother
        obtain ⟨rest, hheard⟩ := hbus.next htake
        have hmem : msg ∈ Bus.hear Broadcast.topic (.downlink other) [] (posted seen) := by
          rw [← hheard]
          simp
        obtain ⟨d, hextract⟩ := h.subscribed.extracts hmem
        rw [hextract] at hactor
        obtain ⟨hsound, hsubscribed, hcase⟩ := h.sound.handle hready hactor
        have hhandled : handledBy (.downlink other) (seen ++ .handled (.downlink other) msg ::
            more.map (.downlink other)) = handledBy (.downlink other) seen ++ [msg] := by
          rw [← List.singleton_append, ← List.append_assoc, handledBy_append, handledBy_downlink,
            List.append_nil, handledBy_append]
          simp [handledBy, NodeSeen.handled?]
        have hshown : shownBy other (seen ++ .handled (.downlink other) msg ::
            more.map (.downlink other)) = shownBy other seen ++ more := by
          rw [← List.singleton_append, shownBy_append, shownBy_append, shownBy_downlink,
            if_pos rfl]
          rfl
        refine ⟨?_, ?_, ?_⟩
        · rw [posted_append, hposted, List.append_nil]
          simp only [Function.update_self]
          exact h.subscribed.same hsubscribed
        · rw [hshown]
          simp only [Function.update_self]
          exact hsound
        · rw [hshown, hhandled]
          simp only [Function.update_self]
          exact h.accounts.took hready hextract hcase
      · refine h.apart (Function.update_of_ne (Ne.symm hother) _ _) (by simp [hposted]) ?_ ?_
        · have hnone : NodeSeen.handled? (.downlink address)
              (.handled (.downlink other) msg : NodeSeen crc ε) = none := by
            simp [NodeSeen.handled?, hother]
          rw [handledBy, List.filterMap_cons_none hnone]
          exact handledBy_downlink _ _ _
        · rw [← List.singleton_append, shownBy_append, shownBy_downlink, if_neg hother]
          rfl
  | @restarted other actor hrestart =>
      by_cases hother : other = address
      · subst hother
        have hsubscribed : actor.subscribed = (s.downlinks other).subscribed := by
          unfold DownlinkActor.restart at hrestart
          split at hrestart
          · cases hrestart
            rfl
          · cases hrestart
        rw [List.append_nil]
        refine ⟨?_, ?_, ?_⟩
        · simp only [Function.update_self]
          exact h.subscribed.same hsubscribed
        · simp only [Function.update_self]
          exact h.sound.restart hrestart
        · simp only [Function.update_self]
          exact h.accounts.restart h.sound.waits hrestart
      · exact h.apart (Function.update_of_ne (Ne.symm hother) _ _) (by simp) rfl rfl

end Steps

namespace Downlink

def serialUplinkRaw? : Downlink crc → Option Bytes
  | .serialUplinkRaw bytes => some bytes.bytes
  | _ => none

def serialDownlink? : Downlink crc → Option (Message crc)
  | .serialDownlink msg => some msg
  | _ => none

def uplinkInterpreted? : Downlink crc → Option (Message crc)
  | .uplinkInterpreted msg => some msg
  | _ => none

def packed? : Downlink crc → Option Bytes
  | .serialUplink msg => some (wire msg)
  | _ => none

def unpacked? : Downlink crc → Option (Message crc)
  | .serialDownlinkRaw bytes => Serial.handleDownPacket bytes.bytes
  | _ => none

def commanded? : Downlink crc → Option (Message crc)
  | .uplinkMirror bytes => Uplink.command? bytes.bytes
  | _ => none

end Downlink

/-- What the ground has read is the relay's account of it: packets before what is
read out of them, messages before what they are packed to. -/
structure Explained (received : List (Downlink crc)) : Prop where
  packed : received.filterMap Downlink.serialUplinkRaw? <+: received.filterMap Downlink.packed?
  unpacked : received.filterMap Downlink.serialDownlink? <+: received.filterMap Downlink.unpacked?
  commanded : received.filterMap Downlink.uplinkInterpreted? <+:
    received.filterMap Downlink.commanded?

theorem extract_prefix {α : Type} {done : List (Broadcast crc)} {f g : Downlink crc → Option α}
    {f' g' : Broadcast crc → Option α} (hf : ∀ msg, (DownlinkActor.extract msg).bind f = f' msg)
    (hg : ∀ msg, (DownlinkActor.extract msg).bind g = g' msg)
    (h : done.filterMap f' <+: done.filterMap g') :
    (done.filterMap DownlinkActor.extract).filterMap f <+:
      (done.filterMap DownlinkActor.extract).filterMap g := by
  rw [List.filterMap_filterMap, List.filterMap_filterMap, funext hf, funext hg]
  exact h

theorem Paired.explained {done : List (Broadcast crc)} (h : Paired done) :
    Explained (done.filterMap DownlinkActor.extract) where
  packed :=
    extract_prefix (by intro msg; cases msg <;> rfl) (by intro msg; cases msg <;> rfl)
      h.packed.prefix_of_follows
  unpacked :=
    extract_prefix (by intro msg; cases msg <;> rfl) (by intro msg; cases msg <;> rfl)
      h.unpacked.prefix_of_follows
  commanded :=
    extract_prefix (by intro msg; cases msg <;> rfl) (by intro msg; cases msg <;> rfl)
      h.commanded.prefix_of_follows

theorem Explained.of_logs {logs received : List (Downlink crc)} (h : Explained (logs ++ received))
    (hlogs : ∀ d ∈ logs, ∃ log, d = .log log) : Explained received := by
  have hnone {α : Type} (f : Downlink crc → Option α) (hf : ∀ log, f (.log log) = none) :
      (logs ++ received).filterMap f = received.filterMap f := by
    rw [List.filterMap_append, List.filterMap_eq_nil_iff.mpr, List.nil_append]
    intro d hmem
    obtain ⟨log, rfl⟩ := hlogs d hmem
    exact hf log
  obtain ⟨hpacked, hunpacked, hcommanded⟩ := h
  rw [hnone _ fun _ => rfl, hnone _ fun _ => rfl] at hpacked hunpacked hcommanded
  exact ⟨hpacked, hunpacked, hcommanded⟩

theorem isSome_extract (msg : Broadcast crc) (h : (DownlinkActor.extract msg).isSome) :
    msg.topic ∈ DownlinkActor.topics := by
  cases msg <;>
    first
    | exact absurd h Bool.false_ne_true
    | simp [Broadcast.topic, DownlinkActor.topics]

def sinceSubscribed (address : Nat) (seen : List (NodeSeen crc ε)) : List (Broadcast crc) :=
  (((posted seen).dropWhile fun post => !post.subscribes (.downlink address)).filterMap
    Post.issued?).filter fun msg => msg.topic ∈ DownlinkActor.topics

/-- What had been published before a downlink subscribed. -/
def beforeSubscribed (address : Nat) (seen : List (NodeSeen crc ε)) : List (Broadcast crc) :=
  ((posted seen).takeWhile fun post => !post.subscribes (.downlink address)).filterMap
    Post.issued?

def Fate.packet? : Fate ε → Option Bytes
  | .sent _ packet => some packet
  | _ => none

/-- What the downlink to an address has come to with its messages. -/
def fates (address : Nat) (seen : List (NodeSeen crc ε)) : List (Fate ε) :=
  (shownBy address seen).filterMap DownlinkSeen.fate?

section Ping

set_option maxRecDepth 100000 in
theorem pingEchoed_run : ∃ visits s seen,
    (Node.machine (StandardCRC crc8Smbus) Brotli.stored).Run visits s seen ∧
      issued seen = [.upMessage ping, .serialUpPacket (wire ping)] ∧
      sinceSubscribed 0 seen = issued seen ∧
      fates 0 seen = [.sent 0 (storedStream (serialize Downlink.codec (.serialUplink ping))),
        .sent 0 (storedStream (serialize Downlink.codec
          (.serialUplinkRaw ⟨wire ping⟩ : Downlink (StandardCRC crc8Smbus))))] ∧
      s.bus.queue = [] ∧ s.bus.mailbox (.downlink 0) = [] ∧ (s.downlinks 0).waits = [] := by
  have hrun := Machine.Run.start.follow
    (show (Node.machine _ Brotli.stored).follow [] _ [] pingEchoed = some (_, _, _) from rfl)
  exact ⟨_, _, _, hrun, rfl, rfl, rfl, rfl, rfl, rfl⟩

theorem addressable_ping {seen : List (NodeSeen (StandardCRC crc8Smbus) Unit)}
    (h : issued seen = [.upMessage ping, .serialUpPacket (wire ping)]) :
    ∀ msg ∈ issued seen, ∀ d, DownlinkActor.extract msg = some d → d.Addressable := by
  rw [h]
  intro msg hmem d hextract
  simp only [List.mem_cons, List.not_mem_nil, or_false] at hmem
  rcases hmem with rfl | rfl
  · cases hextract
    show (0 : Nat) < 2 ^ 64
    decide
  · cases hextract
    show (wire ping).length < 2 ^ 64
    decide

end Ping

section Runs

variable (brotli : Brotli ε)
  {visits : List (Visit (Node crc) (NodeAction crc) (NodeSeen crc ε))} {s : Node crc}
  {seen : List (NodeSeen crc ε)}

theorem SubscribedOnce.heard {address : Nat} {actor : DownlinkActor}
    (h : SubscribedOnce address actor (posted seen)) :
    Bus.hear Broadcast.topic (.downlink address) [] (posted seen) =
      sinceSubscribed address seen := by
  rw [sinceSubscribed]
  by_cases hsubscribed : actor.subscribed = true
  · rw [SubscribedOnce, if_pos hsubscribed] at h
    obtain ⟨before, after, hposted, hbefore, hafter⟩ := h
    have hfirst : DownlinkActor.topics.map (Post.subscribe (.downlink address)) =
        .subscribe (.downlink address) .serialDownPacket ::
          (DownlinkActor.topics.tail.map (.subscribe (.downlink address)) :
            List (BroadcastPost crc)) := rfl
    rw [hposted, Bus.hear_of_subscribed _ (by decide) hbefore hafter, List.append_assoc,
      List.dropWhile_append_of_pos (by simpa using hbefore), hfirst, List.cons_append,
      List.dropWhile_cons_of_neg (by simp [Post.subscribes])]
    rfl
  · rw [SubscribedOnce, if_neg hsubscribed] at h
    have hnone : (posted seen).dropWhile (fun post => !post.subscribes (.downlink address)) =
        [] := by
      rw [List.dropWhile_eq_nil_iff]
      simpa using h
    rw [Bus.hear_nil _ h, hnone]
    rfl

theorem echoing_of_run (hrun : (Node.machine crc brotli).Run visits s seen) (address : Nat) :
    BusKept s seen ∧ Echoing brotli address s seen :=
  (hrun.always (fun s seen => BusKept s seen ∧ Echoing brotli address s seen)
    ⟨busKept_default, echoing_default⟩ fun h hnext =>
      have hmoved := nodeMoved_of_next hnext
      ⟨h.1.moved hmoved, h.2.moved h.1 hmoved⟩).1

/-- A downlink has dealt with what has been published for it, in order and each
message once, up to some point; with all of it once it has nothing left to do.
What was sent decodes to what it was sent for. -/
theorem downlink_echoes (hbrotli : brotli.Inverts)
    (hrun : (Node.machine crc brotli).Run visits s seen)
    (hmemory : ∀ msg ∈ issued seen, ∀ d, DownlinkActor.extract msg = some d → d.Addressable)
    (address : Nat) :
    ∃ done : List (Broadcast crc × Fate ε), fates address seen = done.map Prod.snd ∧
      done.map Prod.fst <+: sinceSubscribed address seen ∧
      (∀ msg socket packet, (msg, .sent socket packet) ∈ done →
        ∃ d, DownlinkActor.extract msg = some d ∧ decodeDownlink brotli packet = .ok d) ∧
      (s.bus.queue = [] → s.bus.mailbox (.downlink address) = [] →
        (s.downlinks address).waits = [] → done.map Prod.fst = sinceSubscribed address seen) := by
  obtain ⟨hbus, hechoing⟩ := echoing_of_run brotli hrun address
  obtain ⟨done, inHand, hhandled, hfates, hsent, hsending, _⟩ := hechoing.accounts
  have hheard := hbus.heard (.downlink address)
  rw [hechoing.subscribed.heard, hhandled, List.append_assoc] at hheard
  refine ⟨done, hfates, ⟨_, hheard⟩, ?_, ?_⟩
  · intro msg socket packet hmem
    obtain ⟨d, hextract, hcompress⟩ := hsent msg socket packet hmem
    have hissued : msg ∈ issued seen := by
      have hsince : msg ∈ sinceSubscribed address seen := by
        rw [← hheard]
        exact List.mem_append_left _ (List.mem_map_of_mem hmem)
      obtain ⟨post, hpost, heq⟩ := List.mem_filterMap.mp (List.mem_of_mem_filter hsince)
      exact List.mem_filterMap.mpr ⟨post, (List.dropWhile_sublist _).subset hpost, heq⟩
    have hpacket : genHandle brotli id (some socket) d = .ok (socket, packet) :=
      genHandle_eq_ok.mpr ⟨rfl, hcompress⟩
    exact ⟨d, hextract, decodeDownlink_genHandle hbrotli (hmemory msg hissued d hextract) hpacket⟩
  · intro hqueue hmailbox hwaits
    rw [hwaits] at hsending
    have hnone : inHand = [] := List.map_eq_nil_iff.mp hsending.symm
    rw [hnone, hqueue, hmailbox] at hheard
    simpa [Bus.hear] using hheard

theorem downlink_echoes_ping : ∃ visits s seen,
    (Node.machine (StandardCRC crc8Smbus) Brotli.stored).Run visits s seen ∧
      sinceSubscribed 0 seen = [.upMessage ping, .serialUpPacket (wire ping)] ∧
      ∃ done : List (Broadcast (StandardCRC crc8Smbus) × Fate Unit),
        fates 0 seen = done.map Prod.snd ∧ done.map Prod.fst = sinceSubscribed 0 seen := by
  obtain ⟨visits, s, seen, hrun, hissued, hsince, _, hqueue, hmailbox, hwaits⟩ := pingEchoed_run
  obtain ⟨done, hfates, _, _, hall⟩ := downlink_echoes Brotli.stored Brotli.stored_inverts hrun
    (addressable_ping hissued) 0
  exact ⟨visits, s, seen, hrun, hsince.trans hissued, done, hfates, hall hqueue hmailbox hwaits⟩

/-- A datagram is tried only on the socket connected last, and only as long as
none has failed on it; the sender is always there. -/
theorem downlink_tries_live_sockets (hrun : (Node.machine crc brotli).Run visits s seen)
    (address : Nat) :
    Historically TriesLive (shownBy address seen) ∧ Fate.panicked ∉ fates address seen := by
  have hsound := (echoing_of_run brotli hrun address).2.sound
  refine ⟨hsound.tries, ?_⟩
  intro hmem
  obtain ⟨item, hitem, heq⟩ := List.mem_filterMap.mp hmem
  cases item with
  | connected socket => cases heq
  | fate fate =>
      cases heq
      exact hsound.quiet hitem

theorem downlink_tries_live_sockets_ping : ∃ visits s seen,
    (Node.machine (StandardCRC crc8Smbus) Brotli.stored).Run visits s seen ∧
      (fates 0 seen).map Fate.socket? = [some 0, some 0] ∧
      Historically TriesLive (shownBy 0 seen) := by
  obtain ⟨visits, s, seen, hrun, _, _, hsent, _⟩ := pingEchoed_run
  refine ⟨visits, s, seen, hrun, ?_, (downlink_tries_live_sockets Brotli.stored hrun 0).1⟩
  rw [hsent]
  rfl

theorem decode_sent {done : List (Broadcast crc × Fate ε)}
    (hsent : ∀ entry ∈ done, entry.2.packet?.isSome)
    (hdecodes : ∀ msg socket packet, (msg, .sent socket packet) ∈ done →
      ∃ d, DownlinkActor.extract msg = some d ∧ decodeDownlink brotli packet = .ok d) :
    ((done.map Prod.snd).filterMap Fate.packet?).map (decodeDownlink brotli) =
      ((done.map Prod.fst).filterMap DownlinkActor.extract).map .ok := by
  induction done with
  | nil => rfl
  | cons entry done ih =>
      rw [List.forall_mem_cons] at hsent
      obtain ⟨msg, fate⟩ := entry
      cases fate with
      | sent socket packet =>
          obtain ⟨d, hextract, hdecode⟩ := hdecodes msg socket packet List.mem_cons_self
          have hrest := ih hsent.2 fun msg socket packet hmem =>
            hdecodes msg socket packet (List.mem_cons_of_mem _ hmem)
          rw [List.map_cons, List.map_cons, List.filterMap_cons_some hextract, List.map_cons,
            ← hrest, ← hdecode]
          rfl
      | _ => exact absurd hsent.1 Bool.false_ne_true

/-- As long as every datagram has been sent and nothing but logs was published
before the downlink subscribed, a ground station that listens from the start reads
a prefix of all that was published, those logs left out, and finds each interpreted
value explained by what it has read before. -/
theorem ground_reads (hbrotli : brotli.Inverts)
    (hrun : (Node.machine crc brotli).Run visits s seen)
    (hmemory : ∀ msg ∈ issued seen, ∀ d, DownlinkActor.extract msg = some d → d.Addressable)
    (address : Nat) (hsent : ∀ fate ∈ fates address seen, fate.packet?.isSome)
    (hearly : ∀ d ∈ (beforeSubscribed address seen).filterMap DownlinkActor.extract,
      ∃ log, d = .log log) :
    ∃ received : List (Downlink crc),
      ((fates address seen).filterMap Fate.packet?).map (decodeDownlink brotli) =
        received.map .ok ∧
      (beforeSubscribed address seen).filterMap DownlinkActor.extract ++ received <+:
        (issued seen).filterMap DownlinkActor.extract ∧ Explained received := by
  obtain ⟨done, hfates, hprefix, hdecodes, _⟩ :=
    downlink_echoes brotli hbrotli hrun hmemory address
  obtain ⟨front, ⟨back, hafter⟩, hfront⟩ := exists_prefix_filter hprefix
  have hissued : issued seen = (beforeSubscribed address seen ++ front) ++ back := by
    rw [issued_eq, ← List.takeWhile_append_dropWhile
      (p := fun post => !post.subscribes (.downlink address))
      (l := seen.filterMap NodeSeen.posted?), List.filterMap_append, List.append_assoc, hafter]
    rfl
  refine ⟨front.filterMap DownlinkActor.extract, ?_, ?_, ?_⟩
  · rw [hfates] at hsent ⊢
    rw [← filterMap_filter_of_isSome front fun msg hmsg => decide_eq_true (isSome_extract msg hmsg),
      hfront]
    exact decode_sent brotli (List.forall_mem_map.mp hsent) hdecodes
  · rw [hissued, ← List.filterMap_append, List.filterMap_append (l := _ ++ front)]
    exact List.prefix_append _ _
  · have hpaired := (pairingKept_of_run brotli hrun).paired
    rw [hissued] at hpaired
    have hexplained := hpaired.of_append.explained
    rw [List.filterMap_append] at hexplained
    exact hexplained.of_logs hearly

def loggedFirst : List (NodeAction (StandardCRC crc8Smbus)) :=
  [.log ⟨[]⟩, .downlink 0 (.finish 0 true)] ++ List.replicate 11 .forward ++
    [.upMessage ping, .forward, .serial, .forward, .downlink 0 .handle,
      .downlink 0 (.finish 0 true), .downlink 0 .handle, .downlink 0 (.finish 0 true)]

set_option maxRecDepth 100000 in
theorem ground_reads_ping : ∃ visits s seen,
    (Node.machine (StandardCRC crc8Smbus) Brotli.stored).Run visits s seen ∧
      issued seen = [.log ⟨[]⟩, .upMessage ping, .serialUpPacket (wire ping)] ∧
      ∃ received : List (Downlink (StandardCRC crc8Smbus)),
        ((fates 0 seen).filterMap Fate.packet?).map (decodeDownlink Brotli.stored) =
          received.map .ok ∧ received.length = 2 ∧ Explained received := by
  have hrun := Machine.Run.start.follow
    (show (Node.machine _ Brotli.stored).follow [] _ [] loggedFirst = some (_, _, _) from rfl)
  obtain ⟨received, hreceived, _, hexplained⟩ :=
    ground_reads Brotli.stored Brotli.stored_inverts hrun
      (by
        intro msg hmem d hextract
        have hmem : msg ∈ [.log ⟨[]⟩, .upMessage ping, .serialUpPacket (wire ping)] := hmem
        simp only [List.mem_cons, List.not_mem_nil, or_false] at hmem
        rcases hmem with rfl | rfl | rfl
        · cases hextract
          simp [Downlink.Addressable, Log.Addressable]
        · cases hextract
          show (0 : Nat) < 2 ^ 64
          decide
        · cases hextract
          show (wire ping).length < 2 ^ 64
          decide) 0
      (show ∀ fate ∈ [Fate.sent 0 _, Fate.sent 0 _], fate.packet?.isSome by simp [Fate.packet?])
      (show ∀ d ∈ [Downlink.log ⟨[]⟩], ∃ log, d = .log log by simp)
  refine ⟨_, _, _, hrun, rfl, received, hreceived, ?_, hexplained⟩
  have hlength := congrArg List.length hreceived
  exact (hlength.trans (List.length_map _)).symm.trans rfl

end Runs

end AntRelay.Runtime
