import AntRelay.Base.Machine
import AntRelay.Base.Once
import AntRelay.Format.Payloads

namespace AntRelay.Format

open AntRelay.Base

/-! The packed value and its checksum are kept once they have been asked for,
and a copy of the value takes what is kept with it. Nothing can be told from
what comes back: the value without its caches is what the rest of this
development speaks about. -/

structure Cached (α : Type) where
  val : α
  cacheBytes : Option (Except PackingError Bytes)
  cacheChecksum : Option (Except PackingError Bytes)

inductive Work where
  | packed
  | checksummed
  deriving DecidableEq, Repr

namespace Cached

variable {α : Type}

def new (data : α) : Cached α := ⟨data, none, none⟩

section Calls

variable [PackedStructSlice α] (crc : Checksum)

def payloadBytes : Call (Cached α) Work PackingError Bytes :=
  Call.getOrInit Cached.cacheBytes (fun self bytes => { self with cacheBytes := some bytes })
    (Call.work .packed fun self => packToVec self.val)

def checksum : Call (Cached α) Work PackingError Bytes :=
  Call.getOrInit Cached.cacheChecksum
    (fun self checksum => { self with cacheChecksum := some checksum }) do
      let payload ← payloadBytes
      Call.work .checksummed fun _ => .ok (crc.checksumArray payload)

def packToSlice (output : Bytes) : Call (Cached α) Work PackingError Bytes := do
  let size ← Call.read fun self => WithCRC.packedBytesSize (some (⟨self.val⟩ : WithCRC α crc))
  let splitPoint := WithCRC.splitPoint crc output
  let front ← Call.read fun _ => sliceTo output size
  let (payload, checksum) ← Call.read fun _ => splitAt front splitPoint
  if checksum.length ≠ crc.size then Call.read fun _ => .error .bufferTooSmall
  else
    let bytes ← payloadBytes
    let payload ← Call.read fun _ => copyFromSlice payload bytes
    let computed ← Cached.checksum crc
    let checksum ← Call.read fun _ => copyFromSlice checksum computed
    pure (payload ++ checksum ++ output.drop size)

/-- A received value has been asked for its checksum before it is handed out. -/
def unpackFromSlice (src : Bytes) : Call Unit Work PackingError (Cached α) := do
  let (payload, srcChecksum) ← Call.read fun _ => splitAt src (WithCRC.splitPoint crc src)
  if srcChecksum.length ≠ crc.size then Call.read fun _ => .error .bufferTooSmall
  else
    let payload ← Call.read fun _ => Format.unpackFromSlice payload
    let (computedChecksum, result) ← Call.onNew (new payload) (Cached.checksum crc)
    if srcChecksum ≠ computedChecksum then Call.read fun _ => .error .invalidValue
    else pure result

end Calls

/-- What is kept is what would be computed. -/
structure Faithful [PackedStructSlice α] (crc : Checksum) (val : α) (held : Cached α) : Prop where
  same : held.val = val
  bytes : ∀ kept, held.cacheBytes = some kept →
    outcomeOf kept = (⟨val⟩ : WithCRC α crc).payloadBytes
  checksum : ∀ kept, held.cacheChecksum = some kept →
    outcomeOf kept = (⟨val⟩ : WithCRC α crc).checksum

def room (self : Cached α) : Work → Nat
  | .packed => if self.cacheBytes.isNone then 1 else 0
  | .checksummed => if self.cacheChecksum.isNone then 1 else 0

theorem room_le_one (self : Cached α) (item : Work) : self.room item ≤ 1 := by
  cases item with
  | packed =>
      change (if self.cacheBytes.isNone then 1 else 0) ≤ 1
      split <;> omega
  | checksummed =>
      change (if self.cacheChecksum.isNone then 1 else 0) ≤ 1
      split <;> omega

section Laws

variable [PackedStructSlice α] {crc : Checksum} {val : α}

theorem faithful_new (crc : Checksum) (val : α) : Faithful crc val (new val) :=
  ⟨rfl, nofun, nofun⟩

theorem payloadBytes_keeps :
    Call.Keeps (Faithful crc val) room payloadBytes (⟨val⟩ : WithCRC α crc).payloadBytes := by
  have hwork : Call.Fills (Faithful crc val) room Work.packed
      (Call.work .packed fun self => packToVec self.val)
      (⟨val⟩ : WithCRC α crc).payloadBytes := by
    apply Call.fills_work
    intro self h
    rw [h.same]
    rfl
  apply hwork.getOrInit
  · intro self kept h hkept
    exact h.bytes kept hkept
  · intro self kept h hkept
    refine ⟨h.same, ?_, h.checksum⟩
    rintro other hother
    cases hother
    exact hkept
  · intro self _ hnone
    simp [room, hnone]
  · intro self kept item
    cases item <;> rfl

theorem payloadBytes_alone (self : Cached α) :
    room (payloadBytes self).2.1 .checksummed = room self .checksummed := by
  unfold payloadBytes Call.getOrInit Call.work
  split
  · rfl
  · cases hpack : packToVec self.val <;> simp only [hpack] <;> rfl

theorem checksum_keeps :
    Call.Keeps (Faithful crc val) room (checksum crc) (⟨val⟩ : WithCRC α crc).checksum := by
  have hwork : Call.Fills (Faithful crc val) room Work.checksummed (do
      let payload ← payloadBytes
      Call.work .checksummed fun _ => .ok (crc.checksumArray payload))
      (⟨val⟩ : WithCRC α crc).checksum := by
    apply Call.Fills.bind payloadBytes_keeps (fun self _ => payloadBytes_alone self)
    intro payload _
    exact Call.fills_work fun self _ => rfl
  apply hwork.getOrInit
  · intro self kept h hkept
    exact h.checksum kept hkept
  · intro self kept h hkept
    refine ⟨h.same, h.bytes, ?_⟩
    rintro other hother
    cases hother
    exact hkept
  · intro self _ hnone
    simp [room, hnone]
  · intro self kept item
    cases item <;> rfl

theorem packToSlice_keeps (output : Bytes) :
    Call.Keeps (Faithful crc val) room (packToSlice crc output)
      (WithCRC.packToSlice (⟨val⟩ : WithCRC α crc) output) := by
  unfold packToSlice WithCRC.packToSlice
  have hsize : Call.Keeps (Faithful crc val) room
      (Call.read fun self => WithCRC.packedBytesSize (some (⟨self.val⟩ : WithCRC α crc)))
      (WithCRC.packedBytesSize (some (⟨val⟩ : WithCRC α crc))) :=
    Call.keeps_read fun self h => by rw [h.same]
  apply hsize.bind
  intro size _
  apply (Call.keeps_read fun _ _ => rfl).bind
  intro front _
  apply (Call.keeps_read fun _ _ => rfl).bind
  rintro ⟨payload, checksum⟩ _
  simp only
  split
  · exact Call.keeps_read fun _ _ => rfl
  · apply payloadBytes_keeps.bind
    intro bytes _
    apply (Call.keeps_read fun _ _ => rfl).bind
    intro payload _
    apply checksum_keeps.bind
    intro computed _
    apply (Call.keeps_read fun _ _ => rfl).bind
    intro checksum _
    exact Call.keeps_read fun _ _ => rfl

structure Received (crc : Checksum) (plain : PackingResult (WithCRC α crc))
    (call : PackingResult (Cached α) × Unit × List Work) : Prop where
  result : (call.1 >>= fun held => (pure ⟨held.val⟩ : PackingResult (WithCRC α crc))) = plain
  faithful : ∀ held, call.1 = .ok held → Faithful crc held.val held
  work : ∀ held, call.1 = .ok held → ∀ item, call.2.2.count item + room held item ≤ 1

theorem Received.refused {plain : PackingResult (WithCRC α crc)}
    {call : PackingResult (Cached α) × Unit × List Work}
    (hresult : (call.1 >>= fun held => (pure ⟨held.val⟩ : PackingResult (WithCRC α crc))) = plain)
    (hnone : ∀ held, call.1 ≠ .ok held) : Received crc plain call where
  result := hresult
  faithful := fun held hheld => absurd hheld (hnone held)
  work := fun held hheld => absurd hheld (hnone held)

theorem onNew_received (payload : α) (srcChecksum : Bytes) :
    Received crc (do
      let computedChecksum ← (⟨payload⟩ : WithCRC α crc).checksum
      if srcChecksum ≠ computedChecksum then .error .invalidValue else pure ⟨payload⟩)
      ((do
        let (computedChecksum, result) ← Call.onNew (new payload) (Cached.checksum crc)
        if srcChecksum ≠ computedChecksum then Call.read fun _ => .error .invalidValue
        else pure result : Call Unit Work PackingError (Cached α)) ()) := by
  have hnew := faithful_new crc payload
  have hresult := checksum_keeps.result _ hnew
  have hsound := checksum_keeps.sound _ hnew
  have hwork := checksum_keeps.work _ hnew
  have hroom (item : Work) : room (new payload) item = 1 := by cases item <;> rfl
  rw [Call.bind_apply, Call.onNew]
  rcases hcall : Cached.checksum crc (new payload) with ⟨computed, held, work⟩
  rw [hcall] at hresult hsound hwork
  rw [← hresult]
  cases computed with
  | ok computed =>
      by_cases hmatch : srcChecksum ≠ computed
      · simp only [Outcome.ok_bind, if_pos hmatch]
        exact .refused rfl (by intro held h; cases h)
      · simp only [Outcome.ok_bind, if_neg hmatch]
        have hsame : held.val = payload := hsound.same
        refine ⟨by rw [← hsame]; rfl, ?_, ?_⟩
        · rintro held' hheld
          cases hheld
          rw [hsame]
          exact hsound
        · rintro held' hheld item
          cases hheld
          have hitem := hwork item
          rw [hroom] at hitem
          change (work ++ []).count item + room held item ≤ 1
          rw [List.append_nil]
          exact hitem
  | error err => exact .refused rfl (by intro held h; cases h)
  | panicked => exact .refused rfl (by intro held h; cases h)

theorem unpackFromSlice_received (src : Bytes) :
    Received crc (WithCRC.unpackFromSlice src : PackingResult (WithCRC α crc))
      (unpackFromSlice crc src ()) := by
  have hle : WithCRC.splitPoint crc src ≤ src.length := Nat.sub_le _ _
  unfold unpackFromSlice WithCRC.unpackFromSlice
  rw [Call.bind_apply, Call.read, splitAt_of_le hle]
  simp only [Outcome.ok_bind, List.nil_append]
  split
  · exact .refused rfl (by intro held h; cases h)
  · rw [Call.bind_apply, Call.read]
    cases (Format.unpackFromSlice (src.take (WithCRC.splitPoint crc src)) : PackingResult α) with
    | ok payload => exact onNew_received payload _
    | error err => exact .refused rfl (by intro held h; cases h)
    | panicked => exact .refused rfl (by intro held h; cases h)

end Laws

end Cached

inductive Method where
  | payloadBytes
  | checksum
  | packToSlice (output : Bytes)

inductive CacheAction (α : Type) where
  | new (data : α)
  | unpack (src : Bytes)
  | clone (n : Nat)
  | call (n : Nat) (method : Method)

inductive CacheSeen (α : Type) (crc : Checksum) where
  | made (val : α)
  | unpacked (src : Bytes) (result : PackingResult (WithCRC α crc))
  | worked (n : Nat) (work : Work)
  | answered (n : Nat) (method : Method) (result : PackingResult Bytes)

variable {α : Type} {crc : Checksum}

namespace Method

variable [PackedStructSlice α]

def cached (crc : Checksum) : Method → Call (Cached α) Work PackingError Bytes
  | .payloadBytes => Cached.payloadBytes
  | .checksum => Cached.checksum crc
  | .packToSlice output => Cached.packToSlice crc output

def plain (self : WithCRC α crc) : Method → PackingResult Bytes
  | .payloadBytes => self.payloadBytes
  | .checksum => self.checksum
  | .packToSlice output => WithCRC.packToSlice self output

theorem cached_keeps (method : Method) (val : α) :
    Call.Keeps (Cached.Faithful crc val) Cached.room (method.cached crc)
      (method.plain (⟨val⟩ : WithCRC α crc)) := by
  cases method with
  | payloadBytes => exact Cached.payloadBytes_keeps
  | checksum => exact Cached.checksum_keeps
  | packToSlice output => exact Cached.packToSlice_keeps output

end Method

namespace CacheSeen

def made? : CacheSeen α crc → Option α
  | .made val => some val
  | _ => none

def worked? (n : Nat) : CacheSeen α crc → Option Work
  | .worked m work => if m = n then some work else none
  | _ => none

end CacheSeen

def madeIn (seen : List (CacheSeen α crc)) : List α :=
  seen.filterMap CacheSeen.made?

def workedFor (n : Nat) (seen : List (CacheSeen α crc)) : List Work :=
  seen.filterMap (CacheSeen.worked? n)

section Logs

variable {seen shown : List (CacheSeen α crc)}

theorem madeIn_append : madeIn (seen ++ shown) = madeIn seen ++ madeIn shown :=
  List.filterMap_append

theorem workedFor_append (n : Nat) :
    workedFor n (seen ++ shown) = workedFor n seen ++ workedFor n shown :=
  List.filterMap_append

theorem madeIn_worked (n : Nat) (work : List Work) :
    madeIn (work.map (CacheSeen.worked n) : List (CacheSeen α crc)) = [] := by
  unfold madeIn
  exact filterMap_map_none fun _ => rfl

theorem workedFor_worked (n m : Nat) (work : List Work) :
    workedFor n (work.map (CacheSeen.worked m) : List (CacheSeen α crc)) =
      if m = n then work else [] := by
  unfold workedFor
  split
  · rename_i h
    apply filterMap_map_some
    intro item
    exact if_pos h
  · rename_i h
    apply filterMap_map_none
    intro item
    exact if_neg h

end Logs

namespace Cached

variable [PackedStructSlice α]

def next (crc : Checksum) (held : List (Cached α)) :
    CacheAction α → Option (List (Cached α) × List (CacheSeen α crc))
  | .new data => some (held ++ [new data], [.made data])
  | .unpack src =>
      match unpackFromSlice crc src () with
      | (.ok result, _, work) =>
          some (held ++ [result], [.unpacked src (.ok ⟨result.val⟩), .made result.val] ++
            work.map (.worked held.length))
      | (.error err, _, _) => some (held, [.unpacked src (.error err)])
      | (.panicked, _, _) => some (held, [.unpacked src .panicked])
  | .clone n =>
      match held[n]? with
      | none => none
      | some self => some (held ++ [self], [.made self.val])
  | .call n method =>
      match held[n]? with
      | none => none
      | some self =>
          let (result, self', work) := method.cached crc self
          some (held.set n self', work.map (.worked n) ++ [.answered n method result])

def machine (α : Type) [PackedStructSlice α] (crc : Checksum) :
    Machine (List (Cached α)) (CacheAction α) (CacheSeen α crc) := ⟨[], next crc⟩

end Cached

section Caching

variable [PackedStructSlice α]

structure Caching (crc : Checksum) (held : List (Cached α)) (seen : List (CacheSeen α crc)) :
    Prop where
  made : held.map Cached.val = madeIn seen
  faithful : ∀ self ∈ held, Cached.Faithful crc self.val self
  worked : ∀ n self, held[n]? = some self →
    ∀ work, (workedFor n seen).count work + self.room work ≤ 1
  fresh : ∀ n, held.length ≤ n → workedFor n seen = []
  answers : ∀ n method result, .answered n method result ∈ seen →
    ∃ val, (madeIn seen)[n]? = some val ∧ result = method.plain (⟨val⟩ : WithCRC α crc)
  unpacks : ∀ src result, .unpacked src result ∈ seen → result = WithCRC.unpackFromSlice src

variable {held held' : List (Cached α)} {seen shown : List (CacheSeen α crc)}

theorem Caching.step (h : Caching crc held seen) (hlength : held.length ≤ held'.length)
    (hmade : held'.map Cached.val = held.map Cached.val ++ madeIn shown)
    (hfaithful : ∀ self ∈ held', Cached.Faithful crc self.val self)
    (hworked : ∀ n self, held'[n]? = some self → ∀ work,
      (workedFor n shown).count work + self.room work ≤
        (held[n]?.map fun before => before.room work).getD 1)
    (hfresh : ∀ n, held'.length ≤ n → workedFor n shown = [])
    (hanswers : ∀ n method result, .answered n method result ∈ shown →
      ∃ val, (madeIn seen)[n]? = some val ∧ result = method.plain (⟨val⟩ : WithCRC α crc))
    (hunpacks : ∀ src result, .unpacked src result ∈ shown →
      result = WithCRC.unpackFromSlice src) : Caching crc held' (seen ++ shown) := by
  refine ⟨?_, hfaithful, ?_, ?_, ?_, ?_⟩
  · rw [hmade, h.made, madeIn_append]
  · intro n self hself work
    have hspare := hworked n self hself work
    rw [workedFor_append, List.count_append]
    cases hbefore : held[n]? with
    | some before =>
        have hspent := h.worked n before hbefore work
        rw [hbefore] at hspare
        simp only [Option.map_some, Option.getD_some] at hspare
        omega
    | none =>
        rw [h.fresh n (List.getElem?_eq_none_iff.mp hbefore)]
        rw [hbefore] at hspare
        simp only [Option.map_none, Option.getD_none] at hspare
        simpa using hspare
  · intro n hn
    rw [workedFor_append, h.fresh n (hlength.trans hn), hfresh n hn]
    rfl
  · intro n method result hmem
    have hanswer : ∃ val, (madeIn seen)[n]? = some val ∧
        result = method.plain (⟨val⟩ : WithCRC α crc) := by
      rcases List.mem_append.mp hmem with hold | hnew
      · exact h.answers n method result hold
      · exact hanswers n method result hnew
    obtain ⟨val, hval, hresult⟩ := hanswer
    refine ⟨val, ?_, hresult⟩
    rw [madeIn_append, List.getElem?_append_left (List.getElem?_eq_some_iff.mp hval).1, hval]
  · intro src result hmem
    rcases List.mem_append.mp hmem with hold | hnew
    · exact h.unpacks src result hold
    · exact hunpacks src result hnew

theorem Caching.add (h : Caching crc held seen) {self : Cached α} {work : List Work}
    {front : List (CacheSeen α crc)} (hfaithful : Cached.Faithful crc self.val self)
    (hwork : ∀ item, work.count item + self.room item ≤ 1)
    (hmade : madeIn front = [self.val]) (hnone : ∀ n, workedFor n front = [])
    (hanswers : ∀ n method result, .answered n method result ∉ front)
    (hunpacks : ∀ src result, .unpacked src result ∈ front →
      result = WithCRC.unpackFromSlice src) :
    Caching crc (held ++ [self]) (seen ++ (front ++ work.map (.worked held.length))) := by
  apply h.step
  · simp
  · rw [madeIn_append, hmade, madeIn_worked, List.map_append]
    rfl
  · intro other hother
    rcases List.mem_append.mp hother with hold | hnew
    · exact h.faithful other hold
    · rw [List.mem_singleton.mp hnew]
      exact hfaithful
  · intro n other hother item
    rw [workedFor_append, hnone, workedFor_worked, List.nil_append]
    rcases Nat.lt_or_ge n held.length with hlt | hge
    · rw [List.getElem?_append_left hlt] at hother
      rw [if_neg (by omega), hother]
      simp
    · rw [List.getElem?_append_right hge] at hother
      have hlast : n - held.length = 0 ∧ other = self := by
        rcases hn : n - held.length with _ | m
        · rw [hn] at hother
          exact ⟨rfl, (Option.some.inj hother).symm⟩
        · rw [hn] at hother
          cases hother
      rw [if_pos (by omega), List.getElem?_eq_none hge, hlast.2]
      exact hwork item
  · intro n hn
    rw [List.length_append, List.length_singleton] at hn
    rw [workedFor_append, hnone, workedFor_worked, if_neg (by omega)]
    rfl
  · intro n method result hmem
    rcases List.mem_append.mp hmem with hfront | hback
    · exact absurd hfront (hanswers n method result)
    · simp at hback
  · intro src result hmem
    rcases List.mem_append.mp hmem with hfront | hback
    · exact hunpacks src result hfront
    · simp at hback

theorem Caching.calls (h : Caching crc held seen) {n : Nat} {self : Cached α}
    (hself : held[n]? = some self) (method : Method) :
    Caching crc (held.set n (method.cached crc self).2.1)
      (seen ++ ((method.cached crc self).2.2.map (.worked n) ++
        [.answered n method (method.cached crc self).1])) := by
  have hbefore := h.faithful self (List.mem_of_getElem? hself)
  have hkeeps : Call.Keeps (Cached.Faithful crc self.val) Cached.room (method.cached crc) _ :=
    method.cached_keeps self.val
  have hresult := hkeeps.result self hbefore
  have hsound := hkeeps.sound self hbefore
  have hwork := hkeeps.work self hbefore
  obtain ⟨hn, hget⟩ := List.getElem?_eq_some_iff.mp hself
  apply h.step
  · rw [List.length_set]
  · rw [madeIn_append, madeIn_worked, List.map_set, hsound.same]
    change _ = _ ++ []
    rw [List.append_nil]
    ext1 m
    rw [List.getElem?_set]
    split
    · rename_i hm
      rw [← hm, List.getElem?_map, hself, List.length_map, if_pos hn]
      rfl
    · rfl
  · intro other hother
    rcases List.mem_or_eq_of_mem_set hother with hold | rfl
    · exact h.faithful other hold
    · rw [hsound.same]
      exact hsound
  · intro m other hother item
    rw [workedFor_append, workedFor_worked]
    change ((if n = m then _ else []) ++ []).count item + _ ≤ _
    rw [List.append_nil]
    rw [List.getElem?_set] at hother
    split at hother
    · rename_i hm
      cases hother
      rw [if_pos hm, ← hm, hself]
      exact hwork item
    · rename_i hm
      rw [if_neg hm, hother]
      simp
  · intro m hm
    rw [List.length_set] at hm
    rw [workedFor_append, workedFor_worked, if_neg (by omega)]
    rfl
  · intro m method' result hmem
    rcases List.mem_append.mp hmem with hwork | hanswer
    · simp at hwork
    · cases List.mem_singleton.mp hanswer
      refine ⟨self.val, ?_, hresult⟩
      rw [← h.made, List.getElem?_map, hself]
      rfl
  · intro src result hmem
    simp at hmem

theorem Caching.copies (h : Caching crc held seen) {self : Cached α}
    (hfaithful : Cached.Faithful crc self.val self) :
    Caching crc (held ++ [self]) (seen ++ [.made self.val]) := by
  have hwork (item : Work) : ([] : List Work).count item + self.room item ≤ 1 := by
    rw [List.count_nil, Nat.zero_add]
    exact self.room_le_one item
  have hmade : madeIn [(.made self.val : CacheSeen α crc)] = [self.val] := rfl
  exact h.add hfaithful hwork hmade (fun n => rfl) (by simp) (by simp)

theorem Caching.refuses (h : Caching crc held seen) {src : Bytes}
    {result : PackingResult (WithCRC α crc)} (hresult : result = WithCRC.unpackFromSlice src) :
    Caching crc held (seen ++ [.unpacked src result]) := by
  apply h.step (Nat.le_refl _)
  · exact (List.append_nil _).symm
  · exact h.faithful
  · intro n self hself item
    rw [hself]
    change ([] : List Work).count item + _ ≤ _
    simp
  · exact fun n _ => rfl
  · intro n method result hmem
    simp at hmem
  · intro src' result' hmem
    cases List.mem_singleton.mp hmem
    exact hresult

theorem Caching.next {a : CacheAction α} (h : Caching crc held seen)
    (hnext : Cached.next crc held a = some (held', shown)) : Caching crc held' (seen ++ shown) := by
  cases a with
  | new data =>
      cases hnext
      exact h.copies (Cached.faithful_new crc data)
  | unpack src =>
      have hreceived : Cached.Received crc (WithCRC.unpackFromSlice src : PackingResult _)
        (Cached.unpackFromSlice crc src () : PackingResult (Cached α) × Unit × List Work) :=
        Cached.unpackFromSlice_received src
      simp only [Cached.next] at hnext
      rcases hcall : (Cached.unpackFromSlice crc src () :
        PackingResult (Cached α) × Unit × List Work) with ⟨result, ⟨⟩, work⟩
      rw [hcall] at hnext hreceived
      have hresult := hreceived.result
      cases result with
      | ok self =>
          cases hnext
          apply h.add (hreceived.faithful self rfl) (hreceived.work self rfl) rfl fun n => rfl
          · simp
          · intro src' result hmem
            simp only [List.mem_cons, List.not_mem_nil, or_false, reduceCtorEq,
              CacheSeen.unpacked.injEq] at hmem
            obtain ⟨rfl, rfl⟩ := hmem
            exact hresult
      | error err =>
          cases hnext
          exact h.refuses hresult
      | panicked =>
          cases hnext
          exact h.refuses hresult
  | clone n =>
      simp only [Cached.next] at hnext
      split at hnext
      · cases hnext
      · rename_i self hself
        cases hnext
        exact h.copies (h.faithful self (List.mem_of_getElem? hself))
  | call n method =>
      simp only [Cached.next] at hnext
      split at hnext
      · cases hnext
      · rename_i self hself
        cases hnext
        exact h.calls hself method

/-- Whatever is asked of values and their copies, in whatever order, is answered
as without the caches; and no value packs or checksums twice. -/
theorem caches_only_save_work {visits : List (Visit _ (CacheAction α) (CacheSeen α crc))}
    (hrun : (Cached.machine α crc).Run visits held seen) :
    (∀ n method result, .answered n method result ∈ seen →
      ∃ val, (madeIn seen)[n]? = some val ∧ result = method.plain (⟨val⟩ : WithCRC α crc)) ∧
    (∀ src result, .unpacked src result ∈ seen → result = WithCRC.unpackFromSlice src) ∧
    ∀ n work, (workedFor n seen).count work ≤ 1 := by
  have hinit : Caching crc ([] : List (Cached α)) [] :=
    ⟨rfl, by simp, by simp, fun n _ => rfl, by simp, by simp⟩
  have h : Caching crc held seen := by
    apply (hrun.always (Caching crc) hinit _).1
    intro held seen a held' shown h hnext
    exact h.next hnext
  refine ⟨h.answers, h.unpacks, ?_⟩
  intro n work
  cases hself : held[n]? with
  | some self =>
      have hspent := h.worked n self hself work
      omega
  | none =>
      rw [h.fresh n (List.getElem?_eq_none_iff.mp hself), List.count_nil]
      exact Nat.zero_le 1

end Caching

section Copied

def packetBytes : BytesWrap := ⟨[0x31, 0x32]⟩

def copied : List (CacheAction BytesWrap) :=
  [.new packetBytes, .call 0 .checksum, .clone 0, .call 1 .checksum,
    .unpack (wire (⟨packetBytes⟩ : WithCRC BytesWrap (StandardCRC crc8Smbus))),
    .call 2 (.packToSlice [0, 0, 0])]

set_option maxRecDepth 100000 in
theorem caches_only_save_work_copied : ∃ visits held seen,
    (Cached.machine BytesWrap (StandardCRC crc8Smbus)).Run visits held seen ∧
      workedFor 0 seen = [.packed, .checksummed] ∧ workedFor 1 seen = [] ∧
      workedFor 2 seen = [.packed, .checksummed] ∧
      ∀ n work, (workedFor n seen).count work ≤ 1 := by
  have hrun := Machine.Run.start.follow
    (show (Cached.machine BytesWrap (StandardCRC crc8Smbus)).follow [] _ [] copied =
      some (_, _, _) from rfl)
  exact ⟨_, _, _, hrun, rfl, rfl, rfl, (caches_only_save_work hrun).2.2⟩

end Copied

end AntRelay.Format
