import AntRelay.Base.Machine
import AntRelay.Base.Table

namespace AntRelay.Runtime
open AntRelay.Base

/-! Whoever sends to a service asks the registry first, which keeps recipients
with their types erased. Calls come from many tasks: each is one message to the
registry, and a query goes on when its reply has come. Still every query is
answered as if the registry had been asked at once. -/

/-- A recipient of one type of message, behind `dyn Any`. -/
structure AnyRecipient (TypeId Actor : Type) where
  message : TypeId
  actor : Actor

inductive RegistryCall (TypeId Actor : Type) where
  | set (message : TypeId) (actor : Actor)
  | reset (message : TypeId)
  | query (message : TypeId) (fallback : Actor)

inductive RegistryMail (TypeId Actor : Type) where
  | set (message : TypeId) (recipient : AnyRecipient TypeId Actor)
  | reset (message : TypeId)
  | query (message : TypeId)

structure RegistryReply (TypeId Actor : Type) where
  number : Nat
  message : TypeId
  fallback : Actor
  stored : Option (AnyRecipient TypeId Actor)

variable {TypeId Actor : Type}

structure OverrideRegistry (TypeId Actor : Type) where
  map : AList fun _ : TypeId => AnyRecipient TypeId Actor
  mailbox : List (Nat × RegistryCall TypeId Actor)
  replies : List (RegistryReply TypeId Actor)
  called : Nat

inductive RegistryAction (TypeId Actor : Type) where
  | call (call : RegistryCall TypeId Actor)
  | handle
  | resume (index : Nat)

inductive RegistrySeen (TypeId Actor : Type) where
  | called (call : RegistryCall TypeId Actor)
  | answered (number : Nat) (actor : Actor)

namespace RegistryCall

def mail : RegistryCall TypeId Actor → RegistryMail TypeId Actor
  | .set message actor => .set message ⟨message, actor⟩
  | .reset message => .reset message
  | .query message _ => .query message

end RegistryCall

section Handlers

variable [DecidableEq TypeId]

def AnyRecipient.downcast (message : TypeId) (stored : AnyRecipient TypeId Actor) : Option Actor :=
  if stored.message = message then some stored.actor else none

def RegistryReply.recipient (reply : RegistryReply TypeId Actor) : Actor :=
  match reply.stored.bind (AnyRecipient.downcast reply.message) with
  | some recip => recip
  | none => reply.fallback

namespace OverrideRegistry

def default : OverrideRegistry TypeId Actor := ⟨∅, [], [], 0⟩

def handle (self : OverrideRegistry TypeId Actor) :
    RegistryMail TypeId Actor → OverrideRegistry TypeId Actor × Option (AnyRecipient TypeId Actor)
  | .set typeId recip => ({ self with map := self.map.insert typeId recip }, none)
  | .reset typeId => ({ self with map := self.map.erase typeId }, none)
  | .query typeId => (self, self.map.lookup typeId)

def next (self : OverrideRegistry TypeId Actor) : RegistryAction TypeId Actor →
    Option (OverrideRegistry TypeId Actor × List (RegistrySeen TypeId Actor))
  | .call call =>
      some ({ self with
        mailbox := self.mailbox ++ [(self.called, call)]
        called := self.called + 1 }, [.called call])
  | .handle =>
      match self.mailbox with
      | [] => none
      | (number, call) :: mailbox =>
          let (self', stored) := { self with mailbox := mailbox }.handle call.mail
          match call with
          | .query message fallback =>
              some ({ self' with
                replies := self'.replies ++ [⟨number, message, fallback, stored⟩] }, [])
          | _ => some (self', [])
  | .resume index =>
      match self.replies[index]? with
      | none => none
      | some reply =>
          some ({ self with replies := self.replies.eraseIdx index },
            [.answered reply.number reply.recipient])

def machine (TypeId Actor : Type) [DecidableEq TypeId] :
    Machine (OverrideRegistry TypeId Actor) (RegistryAction TypeId Actor)
      (RegistrySeen TypeId Actor) := ⟨default, next⟩

end OverrideRegistry

def latest (message : TypeId) (calls : List (RegistryCall TypeId Actor)) : Option Actor :=
  calls.foldl (fun held call =>
    match call with
    | .set other actor => if other = message then some actor else held
    | .reset other => if other = message then none else held
    | .query _ _ => held) none

/-- The query is the call of this number, and the actor its answer. -/
def AnsweredBy (calls : List (RegistryCall TypeId Actor)) (number : Nat) (actor : Actor) : Prop :=
  ∃ before message fallback after, calls = before ++ .query message fallback :: after ∧
    before.length = number ∧ actor = (latest message before).getD fallback

namespace RegistrySeen

def called? : RegistrySeen TypeId Actor → Option (RegistryCall TypeId Actor)
  | .called call => some call
  | .answered _ _ => none

end RegistrySeen

def callsIn (seen : List (RegistrySeen TypeId Actor)) : List (RegistryCall TypeId Actor) :=
  seen.filterMap RegistrySeen.called?

namespace RegistryReply

def Explained (calls : List (RegistryCall TypeId Actor)) (reply : RegistryReply TypeId Actor) :
    Prop :=
  ∃ before after, calls = before ++ .query reply.message reply.fallback :: after ∧
    before.length = reply.number ∧
    reply.stored = (latest reply.message before).map fun actor => ⟨reply.message, actor⟩

theorem Explained.append {calls : List (RegistryCall TypeId Actor)}
    {reply : RegistryReply TypeId Actor} (h : reply.Explained calls)
    (more : List (RegistryCall TypeId Actor)) : reply.Explained (calls ++ more) := by
  obtain ⟨before, after, rfl, hnumber, hstored⟩ := h
  exact ⟨before, after ++ more, by simp, hnumber, hstored⟩

theorem Explained.answered {calls : List (RegistryCall TypeId Actor)}
    {reply : RegistryReply TypeId Actor} (h : reply.Explained calls) :
    AnsweredBy calls reply.number reply.recipient := by
  obtain ⟨before, after, hcalls, hnumber, hstored⟩ := h
  refine ⟨before, reply.message, reply.fallback, after, hcalls, hnumber, ?_⟩
  unfold recipient
  rw [hstored]
  cases latest reply.message before with
  | none => rfl
  | some actor => simp [AnyRecipient.downcast]

end RegistryReply

theorem AnsweredBy.append {calls : List (RegistryCall TypeId Actor)} {number : Nat}
    {actor : Actor} (h : AnsweredBy calls number actor)
    (more : List (RegistryCall TypeId Actor)) : AnsweredBy (calls ++ more) number actor := by
  obtain ⟨before, message, fallback, after, rfl, hnumber, hactor⟩ := h
  exact ⟨before, message, fallback, after ++ more, by simp, hnumber, hactor⟩

structure Registering (s : OverrideRegistry TypeId Actor)
    (seen : List (RegistrySeen TypeId Actor)) : Prop where
  called : s.called = (callsIn seen).length
  queue : ∃ handled, callsIn seen = handled ++ s.mailbox.map Prod.snd ∧
    s.mailbox.map Prod.fst = List.range' handled.length s.mailbox.length ∧
    ∀ message, s.map.lookup message =
      (latest message handled).map fun actor => ⟨message, actor⟩
  replies : ∀ reply ∈ s.replies, reply.Explained (callsIn seen)
  answers : ∀ number actor, .answered number actor ∈ seen →
    AnsweredBy (callsIn seen) number actor

section Registering

variable {s s' : OverrideRegistry TypeId Actor} {a : RegistryAction TypeId Actor}
  {seen shown : List (RegistrySeen TypeId Actor)}

theorem Registering.call (h : Registering s seen) (call : RegistryCall TypeId Actor) :
    Registering { s with
      mailbox := s.mailbox ++ [(s.called, call)]
      called := s.called + 1 } (seen ++ [.called call]) := by
  have hcalls : callsIn (seen ++ [.called call]) = callsIn seen ++ [call] :=
    List.filterMap_append
  obtain ⟨handled, hsplit, hnumbers, hmap⟩ := h.queue
  refine ⟨?_, ⟨handled, ?_, ?_, hmap⟩, ?_, ?_⟩
  · rw [hcalls, List.length_append, ← h.called]
    rfl
  · rw [hcalls, hsplit, List.map_append, List.append_assoc]
    rfl
  · have hlast : s.called = handled.length + s.mailbox.length := by
      rw [h.called, hsplit, List.length_append, List.length_map]
    rw [List.map_append, hnumbers, List.length_append, List.length_singleton,
      List.range'_concat, hlast, Nat.one_mul]
    rfl
  · intro reply hreply
    rw [hcalls]
    exact (h.replies reply hreply).append [call]
  · intro number actor hmem
    rw [hcalls]
    rcases List.mem_append.mp hmem with hold | hnew
    · exact (h.answers number actor hold).append [call]
    · simp at hnew

theorem lookup_handle (s : OverrideRegistry TypeId Actor) (call : RegistryCall TypeId Actor)
    {handled : List (RegistryCall TypeId Actor)}
    (hmap : ∀ message, s.map.lookup message =
      (latest message handled).map fun actor => ⟨message, actor⟩) (message : TypeId) :
    (s.handle call.mail).1.map.lookup message =
      (latest message (handled ++ [call])).map fun actor => ⟨message, actor⟩ := by
  unfold latest
  rw [List.foldl_append, ← latest]
  cases call with
  | set other actor =>
      change (s.map.insert other ⟨other, actor⟩).lookup message =
        (if other = message then some actor else latest message handled).map _
      by_cases hsame : other = message
      · rw [if_pos hsame, ← hsame, AList.lookup_insert]
        rfl
      · rw [if_neg hsame, AList.lookup_insert_ne (Ne.symm hsame), hmap]
  | reset other =>
      change (s.map.erase other).lookup message =
        (if other = message then none else latest message handled).map _
      by_cases hsame : other = message
      · rw [if_pos hsame, ← hsame, AList.lookup_erase]
        rfl
      · rw [if_neg hsame, AList.lookup_erase_ne (Ne.symm hsame), hmap]
  | query other fallback => exact hmap message

theorem Registering.take (h : Registering s seen) {number : Nat}
    {call : RegistryCall TypeId Actor} {mailbox : List (Nat × RegistryCall TypeId Actor)}
    (hmail : s.mailbox = (number, call) :: mailbox)
    {replies : List (RegistryReply TypeId Actor)}
    (hreplies : ∀ reply ∈ replies, reply ∈ s.replies ∨ reply.number = number ∧
      call = .query reply.message reply.fallback ∧ reply.stored = s.map.lookup reply.message) :
    Registering ⟨(s.handle call.mail).1.map, mailbox, replies, s.called⟩ seen := by
  obtain ⟨handled, hsplit, hnumbers, hmap⟩ := h.queue
  rw [hmail, List.map_cons] at hsplit
  rw [hmail, List.map_cons, List.length_cons, List.range'_succ, List.cons.injEq] at hnumbers
  obtain ⟨hnumber, hrest⟩ := hnumbers
  refine ⟨h.called, ⟨handled ++ [call], ?_, ?_, lookup_handle s call hmap⟩, ?_, h.answers⟩
  · rw [hsplit, List.append_assoc]
    rfl
  · rw [List.length_append, List.length_singleton]
    exact hrest
  · intro reply hreply
    rcases hreplies reply hreply with hold | ⟨hreplied, hquery, hstored⟩
    · exact h.replies reply hold
    · refine ⟨handled, mailbox.map Prod.snd, ?_, ?_, ?_⟩
      · rw [hsplit, hquery]
      · rw [hreplied]
        exact hnumber.symm
      · rw [hstored, hmap]

theorem Registering.handle (h : Registering s seen)
    (hnext : s.next .handle = some (s', shown)) : Registering s' (seen ++ shown) := by
  simp only [OverrideRegistry.next] at hnext
  split at hnext
  · cases hnext
  · rename_i number call mailbox hmail
    cases call with
    | set message actor =>
        cases hnext
        rw [List.append_nil]
        exact h.take hmail fun reply hreply => .inl hreply
    | reset message =>
        cases hnext
        rw [List.append_nil]
        exact h.take hmail fun reply hreply => .inl hreply
    | query message fallback =>
        cases hnext
        rw [List.append_nil]
        apply h.take hmail
        intro reply hreply
        rcases List.mem_append.mp hreply with hold | hnew
        · exact .inl hold
        · rw [List.mem_singleton.mp hnew]
          exact .inr ⟨rfl, rfl, rfl⟩

theorem Registering.next (h : Registering s seen) (hnext : s.next a = some (s', shown)) :
    Registering s' (seen ++ shown) := by
  cases a with
  | call call =>
      cases hnext
      exact h.call call
  | handle => exact h.handle hnext
  | resume index =>
      simp only [OverrideRegistry.next] at hnext
      split at hnext
      · cases hnext
      · rename_i reply hreply
        cases hnext
        have hcalls : callsIn (seen ++ [.answered reply.number reply.recipient]) =
            callsIn seen := by
          unfold callsIn
          rw [List.filterMap_append]
          exact List.append_nil _
        have hanswer := (h.replies reply (List.mem_of_getElem? hreply)).answered
        refine ⟨?_, ?_, ?_, ?_⟩
        · rw [hcalls]
          exact h.called
        · rw [hcalls]
          exact h.queue
        · intro other hother
          rw [hcalls]
          exact h.replies other (List.mem_of_mem_eraseIdx hother)
        · intro number actor hmem
          rw [hcalls]
          rcases List.mem_append.mp hmem with hold | hnew
          · exact h.answers number actor hold
          · cases List.mem_singleton.mp hnew
            exact hanswer

/-- However the calls of tasks mix with the registry's work, every query is
answered with the actor that was set last for its messages by the calls before
it and not reset since, or else with its own fallback. -/
theorem queries_answer_latest
    {visits : List (Visit _ (RegistryAction TypeId Actor) (RegistrySeen TypeId Actor))}
    (hrun : (OverrideRegistry.machine TypeId Actor).Run visits s seen)
    {number : Nat} {actor : Actor} (hmem : .answered number actor ∈ seen) :
    AnsweredBy (callsIn seen) number actor := by
  have hinit : Registering (OverrideRegistry.default : OverrideRegistry TypeId Actor) [] :=
    ⟨rfl, ⟨[], rfl, rfl, fun message => rfl⟩, by simp [OverrideRegistry.default], by simp⟩
  have h : Registering s seen := by
    apply (hrun.always Registering hinit _).1
    intro s seen a s' shown h hnext
    exact h.next hnext
  exact h.answers number actor hmem

def setAndReset : List (RegistryCall Nat Nat) :=
  [.set 0 7, .query 0 1, .reset 0, .query 0 1]

theorem queries_answer_latest_setAndReset :
    AnsweredBy setAndReset 1 7 ∧ AnsweredBy setAndReset 3 1 := by
  have hrun := Machine.Run.start.follow
    (show (OverrideRegistry.machine Nat Nat).follow [] _ [] [.call (.set 0 7),
      .call (.query 0 1), .handle, .call (.reset 0), .handle, .handle, .call (.query 0 1),
      .handle, .resume 1, .resume 0] = some (_, _, setAndReset.map .called ++
        [.answered 3 1, .answered 1 7]) from rfl)
  exact ⟨queries_answer_latest hrun (by simp), queries_answer_latest hrun (by simp)⟩

end Registering

end Handlers

end AntRelay.Runtime
