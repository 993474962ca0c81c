import AntRelay.Base.Outcome
import AntRelay.Base.Bits

namespace AntRelay.Base

/-- A decoder over a state that includes the receive buffer.  Every item makes
the state smaller, so draining it ends. -/
structure Decoder (σ ε ι : Type) where
  append : σ → Bytes → σ
  decode : σ → Outcome ε (Option ι × σ)
  decodeEof : σ → Outcome ε (Option ι × σ)
  measure : σ → Nat
  decode_lt : ∀ {s item s'}, decode s = .ok (some item, s') → measure s' < measure s
  decodeEof_lt : ∀ {s item s'}, decodeEof s = .ok (some item, s') → measure s' < measure s

variable {σ ε ι : Type}

def drainFuel (call : σ → Outcome ε (Option ι × σ)) :
    Nat → σ → Outcome ε (List (ι × σ) × σ)
  | 0, s => .ok ([], s)
  | fuel + 1, s => do
      let (result, s') ← call s
      match result with
      | none => pure ([], s')
      | some item =>
          let (items, last) ← drainFuel call fuel s'
          pure ((item, s') :: items, last)

def drain (call : σ → Outcome ε (Option ι × σ)) (measure : σ → Nat) (s : σ) :
    Outcome ε (List (ι × σ) × σ) :=
  drainFuel call (measure s + 1) s

section Drain

variable {call : σ → Outcome ε (Option ι × σ)} {measure : σ → Nat}

theorem drainFuel_eq_of_le (hlt : ∀ {s item s'}, call s = .ok (some item, s') →
    measure s' < measure s) {fuel fuel' : Nat} {s : σ} (h : measure s < fuel)
    (h' : measure s < fuel') : drainFuel call fuel s = drainFuel call fuel' s := by
  induction fuel generalizing fuel' s with
  | zero => omega
  | succ fuel ih =>
      cases fuel' with
      | zero => omega
      | succ fuel' =>
          simp only [drainFuel]
          cases hcall : call s with
          | error err => rfl
          | panicked => rfl
          | ok result =>
              obtain ⟨item, s'⟩ := result
              cases item with
              | none => rfl
              | some item =>
                  have hsmaller := hlt hcall
                  simp only [Outcome.ok_bind]
                  rw [ih (by omega) (by omega : measure s' < fuel')]

theorem drain_eq (hlt : ∀ {s item s'}, call s = .ok (some item, s') →
    measure s' < measure s) (s : σ) :
    drain call measure s = (call s >>= fun result =>
      match result with
      | (none, s') => .ok ([], s')
      | (some item, s') => drain call measure s' >>= fun rest =>
          .ok ((item, s') :: rest.1, rest.2)) := by
  rw [drain, drainFuel]
  cases hcall : call s with
  | error err => rfl
  | panicked => rfl
  | ok result =>
      obtain ⟨item, s'⟩ := result
      cases item with
      | none => rfl
      | some item =>
          have hsmaller := hlt hcall
          simp only [Outcome.ok_bind, drain]
          rw [drainFuel_eq_of_le hlt hsmaller (Nat.lt_add_one (measure s'))]
          rfl

theorem drainFuel_forall {p : ι → Prop}
    (hcall : ∀ {s item s'}, call s = .ok (some item, s') → p item) {fuel : Nat} {s last : σ}
    {items : List (ι × σ)} (h : drainFuel call fuel s = .ok (items, last)) :
    ∀ entry ∈ items, p entry.1 := by
  induction fuel generalizing s items last with
  | zero =>
      cases h
      simp
  | succ fuel ih =>
      rw [drainFuel, Outcome.bind_eq_ok] at h
      obtain ⟨⟨result, s'⟩, hresult, h⟩ := h
      cases result with
      | none =>
          cases h
          simp
      | some item =>
          simp only [Outcome.bind_eq_ok] at h
          obtain ⟨⟨more, last'⟩, hmore, h⟩ := h
          cases h
          rw [List.forall_mem_cons]
          exact ⟨hcall hresult, ih hmore⟩

end Drain

namespace Decoder

variable (d : Decoder σ ε ι)

def readChunks : σ → List Bytes → Outcome ε (List (ι × σ) × σ)
  | s, [] => .ok ([], s)
  | s, chunk :: chunks => do
      let (items, s') ← drain d.decode d.measure (d.append s chunk)
      let (more, last) ← readChunks s' chunks
      pure (items ++ more, last)

/-- The whole stream: its chunks, then its end. -/
def framedRead (s : σ) (chunks : List Bytes) : Outcome ε (List (ι × σ) × σ) := do
  let (items, s') ← d.readChunks s chunks
  let (more, last) ← drain d.decodeEof d.measure s'
  pure (items ++ more, last)

@[simp] theorem framedRead_nil (s : σ) :
    d.framedRead s [] = drain d.decodeEof d.measure s := by
  simp only [framedRead, readChunks, Outcome.ok_bind, List.nil_append]
  cases drain d.decodeEof d.measure s <;> rfl

theorem framedRead_cons (s : σ) (chunk : Bytes) (chunks : List Bytes) :
    d.framedRead s (chunk :: chunks) =
      (drain d.decode d.measure (d.append s chunk) >>= fun first =>
        d.framedRead first.2 chunks >>= fun rest => .ok (first.1 ++ rest.1, rest.2)) := by
  simp only [framedRead, readChunks]
  cases drain d.decode d.measure (d.append s chunk) with
  | error err => rfl
  | panicked => rfl
  | ok first =>
      simp only [Outcome.ok_bind]
      cases d.readChunks first.2 chunks with
      | error err => rfl
      | panicked => rfl
      | ok middle =>
          simp only [Outcome.ok_bind, Outcome.pure_eq_ok]
          cases drain d.decodeEof d.measure middle.2 with
          | error err => rfl
          | panicked => rfl
          | ok last => simp

section Items

variable {d} {p : ι → Prop} {s last : σ} {chunks : List Bytes} {items : List (ι × σ)}

theorem readChunks_forall (hdecode : ∀ {s item s'}, d.decode s = .ok (some item, s') → p item)
    (h : d.readChunks s chunks = .ok (items, last)) : ∀ entry ∈ items, p entry.1 := by
  induction chunks generalizing s items last with
  | nil =>
      cases h
      simp
  | cons chunk chunks ih =>
      simp only [readChunks, Outcome.bind_eq_ok] at h
      obtain ⟨⟨first, s'⟩, hfirst, ⟨more, last'⟩, hmore, h⟩ := h
      cases h
      rw [List.forall_mem_append]
      exact ⟨drainFuel_forall hdecode hfirst, ih hmore⟩

theorem framedRead_forall (hdecode : ∀ {s item s'}, d.decode s = .ok (some item, s') → p item)
    (hdecodeEof : ∀ {s item s'}, d.decodeEof s = .ok (some item, s') → p item)
    (h : d.framedRead s chunks = .ok (items, last)) : ∀ entry ∈ items, p entry.1 := by
  simp only [framedRead, Outcome.bind_eq_ok] at h
  obtain ⟨⟨first, s'⟩, hfirst, ⟨more, last'⟩, hmore, h⟩ := h
  cases h
  rw [List.forall_mem_append]
  exact ⟨readChunks_forall hdecode hfirst, drainFuel_forall hdecodeEof hmore⟩

end Items

end Decoder

inductive Yields (call : σ → Outcome ε (Option ι × σ)) : σ → List ι → σ → Prop where
  | stop {s s' : σ} : call s = .ok (none, s') → Yields call s [] s'
  | item {s s' last : σ} {item : ι} {items : List ι} :
      call s = .ok (some item, s') → Yields call s' items last →
      Yields call s (item :: items) last

theorem Yields.of_call_eq {call : σ → Outcome ε (Option ι × σ)} {s s' last : σ} {items : List ι}
    (h : Yields call s' items last) (hcall : call s = call s') : Yields call s items last := by
  cases h with
  | stop hstop => exact .stop (hcall.trans hstop)
  | item hitem hmore => exact .item (hcall.trans hitem) hmore

theorem Yields.drain {call : σ → Outcome ε (Option ι × σ)} {measure : σ → Nat}
    (hlt : ∀ {s item s'}, call s = .ok (some item, s') → measure s' < measure s)
    {s last : σ} {items : List ι} (h : Yields call s items last) :
    ∃ log, drain call measure s = .ok (log, last) ∧ log.map Prod.fst = items := by
  induction h with
  | stop hcall =>
      refine ⟨[], ?_, rfl⟩
      rw [drain_eq hlt, hcall]
      rfl
  | item hcall hyields ih =>
      rename_i s' last item items
      obtain ⟨log, hlog, hitems⟩ := ih
      refine ⟨(item, s') :: log, ?_, by rw [List.map_cons, hitems]⟩
      rw [drain_eq hlt, hcall, Outcome.ok_bind]
      dsimp only
      rw [hlog]
      rfl

namespace Decoder

variable (d : Decoder σ ε ι)

inductive Reads : σ → List Bytes → List ι → σ → Prop where
  | ends {s last : σ} {items : List ι} :
      Yields d.decodeEof s items last → Reads s [] items last
  | chunk {s s' last : σ} {chunk : Bytes} {chunks : List Bytes} {items more : List ι} :
      Yields d.decode (d.append s chunk) items s' → Reads s' chunks more last →
      Reads s (chunk :: chunks) (items ++ more) last

/-- The states a decoder comes to, in whatever order it is given bytes and called. -/
inductive Reachable (start : σ) : σ → Prop where
  | start : Reachable start start
  | append {s : σ} : Reachable start s → ∀ chunk, Reachable start (d.append s chunk)
  | decode {s s' : σ} {result : Option ι} :
      Reachable start s → d.decode s = .ok (result, s') → Reachable start s'
  | decodeEof {s s' : σ} {result : Option ι} :
      Reachable start s → d.decodeEof s = .ok (result, s') → Reachable start s'

variable {d}

theorem Reads.framedRead {s last : σ} {chunks : List Bytes} {items : List ι}
    (h : d.Reads s chunks items last) :
    ∃ log, d.framedRead s chunks = .ok (log, last) ∧ log.map Prod.fst = items := by
  induction h with
  | ends hyields =>
      rw [framedRead_nil]
      exact hyields.drain d.decodeEof_lt
  | chunk hyields _ ih =>
      obtain ⟨first, hfirst, hitems⟩ := hyields.drain d.decode_lt
      obtain ⟨rest, hrest, hmore⟩ := ih
      refine ⟨first ++ rest, ?_, by rw [List.map_append, hitems, hmore]⟩
      rw [framedRead_cons, hfirst, Outcome.ok_bind]
      dsimp only
      rw [hrest]
      rfl

end Decoder

end AntRelay.Base
