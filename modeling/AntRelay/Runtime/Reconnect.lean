import AntRelay.Base.Machine
import AntRelay.Runtime.Broadcast

namespace AntRelay.Runtime
open AntRelay.Base AntRelay.Format

variable {crc : Checksum} {ε : Type}

namespace Fate

def socket? : Fate ε → Option Nat
  | .sent socket _ => some socket
  | .failed socket => some socket
  | .notCompressed _ => none
  | .panicked => none

end Fate

namespace DownlinkSeen

def connected? : DownlinkSeen ε → Option Nat
  | .connected socket => some socket
  | .fate _ => none

def fate? : DownlinkSeen ε → Option (Fate ε)
  | .connected _ => none
  | .fate f => some f

end DownlinkSeen

/-- The socket connected last, as long as nothing has failed on it. -/
def LiveSocket (shown : List (DownlinkSeen ε)) (socket : Nat) : Prop :=
  (shown.filterMap DownlinkSeen.connected?).getLast? = some socket ∧
    .fate (.failed socket) ∉ shown

/-- What is tried is tried on a live socket. -/
def TriesLive (before : List (DownlinkSeen ε)) (item : DownlinkSeen ε) : Prop :=
  ∀ fate socket, item = .fate fate → fate.socket? = some socket → LiveSocket before socket

theorem LiveSocket.append {shown more : List (DownlinkSeen ε)} {socket : Nat}
    (h : LiveSocket shown socket)
    (hmore : ∀ item ∈ more, item.connected? = none ∧ item ≠ .fate (.failed socket)) :
    LiveSocket (shown ++ more) socket := by
  refine ⟨?_, ?_⟩
  · rw [List.filterMap_append, List.filterMap_eq_nil_iff.mpr fun item hitem =>
      (hmore item hitem).1, List.append_nil]
    exact h.1
  · intro hmem
    rcases List.mem_append.mp hmem with hold | hnew
    · exact h.2 hold
    · exact (hmore _ hnew).2 rfl

namespace DownlinkActor

inductive Finished (self : DownlinkActor) :
    DownlinkActor → List Topic → List (DownlinkSeen ε) → Prop where
  | connected {index : Nat} (h : self.waits[index]? = some .socket) :
      Finished self
        { self with
          waits := self.waits.eraseIdx index
          sender := some self.sockets
          subscribed := true
          sockets := self.sockets + 1 }
        (if self.subscribed then [] else topics) [.connected self.sockets]
  | refused {index : Nat} (h : self.waits[index]? = some .socket) :
      Finished self { self with waits := self.waits.eraseIdx index, stopping := true } [] []
  | slept {index : Nat} (h : self.waits[index]? = some .sleep) :
      Finished self { self with waits := self.waits.eraseIdx index } [] []
  | sent {index socket : Nat} {packet : Bytes}
      (h : self.waits[index]? = some (.send socket packet)) :
      Finished self { self with waits := self.waits.eraseIdx index } []
        [.fate (.sent socket packet)]
  | failed {index socket : Nat} {packet : Bytes}
      (h : self.waits[index]? = some (.send socket packet)) :
      Finished self { self with waits := self.waits.eraseIdx index, stopping := true } []
        [.fate (.failed socket)]

theorem finished_of_finish {self self' : DownlinkActor} {index : Nat} {ok : Bool}
    {topics : List Topic} {shown : List (DownlinkSeen ε)}
    (h : self.finish index ok = some (self', topics, shown)) :
    self.stopping = false ∧ Finished self self' topics shown := by
  unfold finish at h
  split at h
  · cases h
  · rename_i hstopping
    refine ⟨by simpa using hstopping, ?_⟩
    split at h
    · cases h
    · rename_i wait hwait
      cases wait with
      | socket =>
          cases ok with
          | true =>
              cases h
              exact .connected hwait
          | false =>
              cases h
              exact .refused hwait
      | sleep =>
          cases h
          exact .slept hwait
      | send socket packet =>
          cases ok with
          | true =>
              cases h
              exact .sent hwait
          | false =>
              cases h
              exact .failed hwait

def WaitsFor (self : DownlinkActor) : Prop :=
  self.waits ∈ [[], [.socket], [.sleep], [.sleep, .socket]] ∨
    ∃ socket packet, self.waits = [.send socket packet] ∧ self.sender = some socket ∧
      self.stopping = false

structure Sound (actor : DownlinkActor) (shown : List (DownlinkSeen ε)) : Prop where
  waits : actor.WaitsFor
  live : .socket ∉ actor.waits → actor.stopping = false →
    ∃ socket, actor.sender = some socket ∧ LiveSocket shown socket
  numbered : ∀ socket, .fate (.failed socket) ∈ shown → socket < actor.sockets
  sender_lt : ∀ socket, actor.sender = some socket → socket < actor.sockets
  tries : Historically TriesLive shown
  quiet : .fate .panicked ∉ shown

section Sound

variable {self self' : DownlinkActor} {shown more : List (DownlinkSeen ε)}

theorem sound_default : Sound default ([] : List (DownlinkSeen ε)) where
  waits := .inl (by decide)
  live := by
    intro h
    exact absurd (by decide) h
  numbered := by simp
  sender_lt := by
    intro socket h
    cases h
  tries := .nil
  quiet := by simp

theorem waits_eraseIdx (h : self.WaitsFor) {index : Nat} {wait : Wait}
    (hwait : self.waits[index]? = some wait) (hsend : ∀ socket packet, wait ≠ .send socket packet) :
    self.waits.eraseIdx index ∈ [[], [.socket], [.sleep], [.sleep, .socket]] ∧
      (wait = .sleep → .socket ∈ self.waits → .socket ∈ self.waits.eraseIdx index) := by
  rcases h with hmem | ⟨socket, packet, hwaits, _, _⟩
  · simp only [List.mem_cons, List.not_mem_nil, or_false] at hmem
    rcases hmem with hwaits | hwaits | hwaits | hwaits <;> rw [hwaits] at hwait ⊢
    · cases hwait
    · match index with
      | 0 => cases hwait; simp
      | index + 1 => cases hwait
    · match index with
      | 0 => cases hwait; simp
      | index + 1 => cases hwait
    · match index with
      | 0 => cases hwait; simp
      | 1 => cases hwait; simp
      | index + 2 => cases hwait
  · rw [hwaits] at hwait
    match index with
    | 0 =>
        cases hwait
        exact absurd rfl (hsend _ _)
    | index + 1 => cases hwait

theorem waits_send (h : self.WaitsFor) {index socket : Nat} {packet : Bytes}
    (hwait : self.waits[index]? = some (.send socket packet)) :
    self.waits = [.send socket packet] ∧ self.waits.eraseIdx index = [] ∧
      self.sender = some socket := by
  have hmem := List.mem_of_getElem? hwait
  rcases h with hplain | ⟨socket', packet', hwaits, hsender, _⟩
  · simp only [List.mem_cons, List.not_mem_nil, or_false] at hplain
    rcases hplain with hwaits | hwaits | hwaits | hwaits <;> rw [hwaits] at hmem <;> simp at hmem
  · rw [hwaits] at hwait ⊢
    match index with
    | 0 =>
        cases hwait
        exact ⟨rfl, rfl, hsender⟩
    | index + 1 => cases hwait

theorem Sound.finished (h : Sound self shown) (hstopping : self.stopping = false)
    {topics : List Topic} (hfinished : Finished self self' topics more) :
    Sound self' (shown ++ more) := by
  cases hfinished with
  | connected hwait =>
      obtain ⟨hwaits, _⟩ := waits_eraseIdx h.waits hwait (by simp)
      exact
        { waits := .inl hwaits
          live := by
            intro _ _
            refine ⟨self.sockets, rfl, ?_, ?_⟩
            · simp [DownlinkSeen.connected?]
            · intro hmem
              have hlt := h.numbered self.sockets (by simpa using hmem)
              exact absurd hlt (Nat.lt_irrefl _)
          numbered := by
            intro socket hmem
            exact Nat.lt_succ_of_lt (h.numbered socket (by simpa using hmem))
          sender_lt := by
            intro socket hsender
            cases hsender
            exact Nat.lt_succ_self _
          tries := h.tries.concat (by
            intro fate socket hitem
            cases hitem)
          quiet := by simpa using h.quiet }
  | refused hwait =>
      obtain ⟨hwaits, _⟩ := waits_eraseIdx h.waits hwait (by simp)
      rw [List.append_nil]
      exact
        { h with
          waits := .inl hwaits
          live := by
            intro _ hrunning
            cases hrunning }
  | slept hwait =>
      obtain ⟨hwaits, hsocket⟩ := waits_eraseIdx h.waits hwait (by simp)
      rw [List.append_nil]
      exact
        { h with
          waits := .inl hwaits
          live := fun hmem => h.live fun hold => hmem (hsocket rfl hold) }
  | @sent index socket packet hwait =>
      obtain ⟨hwaits, hrest, hsender⟩ := waits_send h.waits hwait
      obtain ⟨socket', hsender', hlive⟩ := h.live (by simp [hwaits]) hstopping
      rw [hsender] at hsender'
      cases hsender'
      exact
        { waits := .inl (by simp [hrest])
          live := fun _ _ => ⟨socket, hsender, hlive.append (by simp [DownlinkSeen.connected?])⟩
          numbered := by
            intro other hmem
            exact h.numbered other (by simpa using hmem)
          sender_lt := h.sender_lt
          tries := h.tries.concat (by
            intro fate other hitem hsocket
            cases hitem
            cases hsocket
            exact hlive)
          quiet := by simpa using h.quiet }
  | @failed index socket packet hwait =>
      obtain ⟨hwaits, hrest, hsender⟩ := waits_send h.waits hwait
      obtain ⟨socket', hsender', hlive⟩ := h.live (by simp [hwaits]) hstopping
      rw [hsender] at hsender'
      cases hsender'
      exact
        { waits := .inl (by simp [hrest])
          live := by
            intro _ hrunning
            cases hrunning
          numbered := by
            intro other hmem
            simp only [List.mem_append, List.mem_singleton, DownlinkSeen.fate.injEq,
              Fate.failed.injEq] at hmem
            rcases hmem with hold | rfl
            · exact h.numbered other hold
            · exact h.sender_lt other hsender
          sender_lt := h.sender_lt
          tries := h.tries.concat (by
            intro fate other hitem hsocket
            cases hitem
            cases hsocket
            exact hlive)
          quiet := by simpa using h.quiet }

theorem Sound.restart (h : Sound self shown) (hrestart : self.restart = some self') :
    Sound self' shown := by
  unfold DownlinkActor.restart at hrestart
  split at hrestart
  · cases hrestart
    exact
      { h with
        waits := .inl (by simp)
        live := by
          intro hmem
          exact absurd (by simp) hmem }
  · cases hrestart

theorem Sound.handle (h : Sound self shown) (hready : self.ready = true) {brotli : Brotli ε}
    {msg : Downlink crc} (hhandle : self.handle brotli msg = (self', more)) :
    Sound self' (shown ++ more) ∧ self'.subscribed = self.subscribed ∧
      ((∃ socket packet, self'.waits = [.send socket packet] ∧ more = [] ∧
        brotli.compress (Base.Bincode.serialize Downlink.codec msg) = .ok packet) ∨
      ∃ err, self' = self ∧ more = [.fate (.notCompressed err)]) := by
  simp only [ready, Bool.and_eq_true, List.isEmpty_iff, Bool.not_eq_true'] at hready
  obtain ⟨hwaits, hstopping⟩ := hready
  obtain ⟨socket, hsender, hlive⟩ := h.live (by simp [hwaits]) hstopping
  unfold DownlinkActor.handle at hhandle
  split at hhandle
  · rename_i socket' packet hsent
    cases hhandle
    obtain ⟨hsender', hcompress⟩ := genHandle_eq_ok.mp hsent
    rw [List.append_nil]
    refine ⟨?_, rfl, .inl ⟨socket', packet, by simp [hwaits], rfl, hcompress⟩⟩
    exact
      { h with
        waits := .inr ⟨socket', packet, by simp [hwaits], hsender', hstopping⟩
        live := fun _ _ => ⟨socket, hsender, hlive⟩ }
  · rename_i err _
    cases hhandle
    refine ⟨?_, rfl, .inr ⟨err, rfl, rfl⟩⟩
    exact
      { h with
        live := fun _ _ => ⟨socket, hsender, hlive.append (by simp [DownlinkSeen.connected?])⟩
        numbered := by
          intro other hmem
          exact h.numbered other (by simpa using hmem)
        tries := h.tries.concat (by
          intro fate other hitem hsocket
          cases hitem
          cases hsocket)
        quiet := by simpa using h.quiet }
  · rename_i hpanicked
    unfold genHandle at hpanicked
    simp only [hsender] at hpanicked
    split at hpanicked <;> cases hpanicked

end Sound

end DownlinkActor

end AntRelay.Runtime
