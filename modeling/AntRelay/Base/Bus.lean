import Mathlib.Data.List.Nodup
import Mathlib.Logic.Function.Basic

namespace AntRelay.Base

inductive Post (ι τ μ : Type) where
  | subscribe (actor : ι) (topic : τ)
  | issue (msg : μ)

structure Bus (ι τ μ : Type) where
  queue : List (Post ι τ μ)
  listening : ι → List τ
  mailbox : ι → List μ

namespace Post

variable {ι τ μ : Type}

def issued? : Post ι τ μ → Option μ
  | .subscribe _ _ => none
  | .issue msg => some msg

def subscribes [DecidableEq ι] (actor : ι) : Post ι τ μ → Bool
  | .subscribe other _ => other == actor
  | .issue _ => false

end Post

namespace Bus

variable {ι τ μ : Type}

def post (bus : Bus ι τ μ) (posts : List (Post ι τ μ)) : Bus ι τ μ :=
  { bus with queue := bus.queue ++ posts }

section Listening

variable [DecidableEq ι]

def take (bus : Bus ι τ μ) (actor : ι) : Option (μ × Bus ι τ μ) :=
  match bus.mailbox actor with
  | [] => none
  | msg :: rest => some (msg, { bus with mailbox := Function.update bus.mailbox actor rest })

def listen (actor : ι) (topics : List τ) : List (Post ι τ μ) → List τ
  | [] => topics
  | .subscribe other t :: posts =>
      listen actor (if other = actor then topics ++ [t] else topics) posts
  | .issue _ :: posts => listen actor topics posts

variable (actor : ι)

theorem listen_append (topics : List τ) (posts more : List (Post ι τ μ)) :
    listen actor topics (posts ++ more) = listen actor (listen actor topics posts) more := by
  induction posts generalizing topics with
  | nil => rfl
  | cons post posts ih => cases post <;> exact ih _

theorem listen_of_not_subscribes (topics : List τ) {posts : List (Post ι τ μ)}
    (h : ∀ post ∈ posts, post.subscribes actor = false) : listen actor topics posts = topics := by
  induction posts with
  | nil => rfl
  | cons post posts ih =>
      rw [List.forall_mem_cons] at h
      cases post with
      | subscribe other t =>
          have hother : other ≠ actor := beq_eq_false_iff_ne.mp h.1
          rw [listen, if_neg hother]
          exact ih h.2
      | issue msg => exact ih h.2

theorem listen_subscriptions (topics new : List τ) :
    listen actor topics (new.map fun t => (.subscribe actor t : Post ι τ μ)) = topics ++ new := by
  induction new generalizing topics with
  | nil => simp [listen]
  | cons t new ih =>
      rw [List.map_cons, listen, if_pos rfl, ih]
      simp

end Listening

variable [DecidableEq ι] [DecidableEq τ] (topic : μ → τ)

def forward (bus : Bus ι τ μ) : Option (Bus ι τ μ) :=
  match bus.queue with
  | [] => none
  | .subscribe actor t :: queue =>
      some { bus with
        queue := queue
        listening := Function.update bus.listening actor (bus.listening actor ++ [t]) }
  | .issue msg :: queue =>
      some { bus with
        queue := queue
        mailbox := fun actor =>
          bus.mailbox actor ++ List.replicate ((bus.listening actor).count (topic msg)) msg }

/-- The messages an actor gets out of these posts. -/
def hear (actor : ι) (topics : List τ) : List (Post ι τ μ) → List μ
  | [] => []
  | .subscribe other t :: posts =>
      hear actor (if other = actor then topics ++ [t] else topics) posts
  | .issue msg :: posts => List.replicate (topics.count (topic msg)) msg ++ hear actor topics posts

section History

variable {topic} (actor : ι)

theorem hear_append (topics : List τ) (posts more : List (Post ι τ μ)) :
    hear topic actor topics (posts ++ more) =
      hear topic actor topics posts ++ hear topic actor (listen actor topics posts) more := by
  induction posts generalizing topics with
  | nil => rfl
  | cons post posts ih =>
      cases post with
      | subscribe other t => exact ih _
      | issue msg =>
          simp only [List.cons_append, hear, listen, ih, List.append_assoc]

theorem hear_subscriptions (topics new : List τ) :
    hear topic actor topics (new.map fun t => (.subscribe actor t : Post ι τ μ)) = [] := by
  induction new generalizing topics with
  | nil => rfl
  | cons t new ih => exact ih _

theorem hear_nil {posts : List (Post ι τ μ)}
    (h : ∀ post ∈ posts, post.subscribes actor = false) : hear topic actor [] posts = [] := by
  induction posts with
  | nil => rfl
  | cons post posts ih =>
      rw [List.forall_mem_cons] at h
      cases post with
      | subscribe other t =>
          have hother : other ≠ actor := beq_eq_false_iff_ne.mp h.1
          rw [hear, if_neg hother]
          exact ih h.2
      | issue msg => simpa [hear] using ih h.2

theorem topic_of_mem_hear {topics : List τ} {posts : List (Post ι τ μ)} {msg : μ}
    (h : msg ∈ hear topic actor topics posts) :
    topic msg ∈ topics ∨ .subscribe actor (topic msg) ∈ posts := by
  induction posts generalizing topics with
  | nil => cases h
  | cons post posts ih =>
      cases post with
      | subscribe other t =>
          rcases ih h with hmem | hmem
          · split at hmem
            · rename_i hother
              rcases List.mem_append.mp hmem with hold | hnew
              · exact .inl hold
              · rw [List.mem_singleton.mp hnew, hother]
                exact .inr List.mem_cons_self
            · exact .inl hmem
          · exact .inr (List.mem_cons_of_mem _ hmem)
      | issue other =>
          rcases List.mem_append.mp h with hnow | hlater
          · obtain ⟨hcount, rfl⟩ := List.mem_replicate.mp hnow
            exact .inl (List.count_pos_iff.mp (Nat.pos_of_ne_zero hcount))
          · rcases ih hlater with hmem | hmem
            · exact .inl hmem
            · exact .inr (List.mem_cons_of_mem _ hmem)

theorem hear_of_nodup {topics : List τ} (hnodup : topics.Nodup) {posts : List (Post ι τ μ)}
    (h : ∀ post ∈ posts, post.subscribes actor = false) :
    hear topic actor topics posts =
      (posts.filterMap Post.issued?).filter fun msg => topic msg ∈ topics := by
  induction posts with
  | nil => rfl
  | cons post posts ih =>
      rw [List.forall_mem_cons] at h
      cases post with
      | subscribe other t =>
          have hother : other ≠ actor := beq_eq_false_iff_ne.mp h.1
          rw [hear, if_neg hother, List.filterMap_cons_none rfl]
          exact ih h.2
      | issue msg =>
          have hissued : (Post.issue msg :: posts).filterMap Post.issued? =
              msg :: posts.filterMap Post.issued? := rfl
          rw [hear, ih h.2, hissued]
          by_cases hmem : topic msg ∈ topics
          · rw [List.count_eq_one_of_mem hnodup hmem, List.filter_cons_of_pos (by simpa using hmem)]
            rfl
          · rw [List.count_eq_zero_of_not_mem hmem, List.filter_cons_of_neg (by simpa using hmem)]
            rfl

theorem hear_of_subscribed {topics : List τ} (hnodup : topics.Nodup)
    {before after : List (Post ι τ μ)}
    (hbefore : ∀ post ∈ before, post.subscribes actor = false)
    (hafter : ∀ post ∈ after, post.subscribes actor = false) :
    hear topic actor [] (before ++ topics.map (.subscribe actor) ++ after) =
      (after.filterMap Post.issued?).filter fun msg => topic msg ∈ topics := by
  rw [hear_append, hear_append, hear_nil actor hbefore, List.nil_append, listen_append,
    listen_of_not_subscribes actor [] hbefore, hear_subscriptions, listen_subscriptions,
    List.nil_append, List.nil_append, hear_of_nodup actor hnodup hafter]

end History

/-- What has been posted, and what each actor has taken so far. -/
def Kept (bus : Bus ι τ μ) (posted : List (Post ι τ μ)) (handled : ι → List μ) : Prop :=
  ∃ forwarded, posted = forwarded ++ bus.queue ∧
    ∀ actor, bus.listening actor = listen actor [] forwarded ∧
      handled actor ++ bus.mailbox actor = hear topic actor [] forwarded

section Kept

variable {topic} {bus bus' : Bus ι τ μ} {posted : List (Post ι τ μ)} {handled : ι → List μ}

theorem kept_start (posts : List (Post ι τ μ)) :
    Bus.Kept topic ⟨posts, fun _ => [], fun _ => []⟩ posts fun _ => [] :=
  ⟨[], rfl, fun _ => ⟨rfl, rfl⟩⟩

theorem Kept.post (h : bus.Kept topic posted handled) (posts : List (Post ι τ μ)) :
    (bus.post posts).Kept topic (posted ++ posts) handled := by
  obtain ⟨forwarded, hposted, hactors⟩ := h
  refine ⟨forwarded, ?_, hactors⟩
  rw [hposted, List.append_assoc]
  rfl

theorem Kept.forward (h : bus.Kept topic posted handled)
    (hforward : bus.forward topic = some bus') : bus'.Kept topic posted handled := by
  obtain ⟨forwarded, hposted, hactors⟩ := h
  unfold Bus.forward at hforward
  split at hforward
  · cases hforward
  · rename_i actor t queue hqueue
    cases hforward
    refine ⟨forwarded ++ [.subscribe actor t], ?_, ?_⟩
    · rw [hposted, hqueue, List.append_assoc]
      rfl
    · intro other
      obtain ⟨hlistening, hheard⟩ := hactors other
      refine ⟨?_, ?_⟩
      · rw [listen_append, ← hlistening]
        by_cases hother : actor = other
        · subst hother
          simp [listen]
        · simp [listen, hother, Function.update_of_ne (Ne.symm hother)]
      · rw [hear_append, ← hheard]
        simp [hear]
  · rename_i msg queue hqueue
    cases hforward
    refine ⟨forwarded ++ [.issue msg], ?_, ?_⟩
    · rw [hposted, hqueue, List.append_assoc]
      rfl
    · intro other
      obtain ⟨hlistening, hheard⟩ := hactors other
      refine ⟨?_, ?_⟩
      · rw [listen_append, ← hlistening]
        rfl
      · rw [hear_append, ← hheard, ← hlistening]
        simp [hear]

theorem Kept.take (h : bus.Kept topic posted handled) {actor : ι} {msg : μ}
    (htake : bus.take actor = some (msg, bus')) :
    bus'.Kept topic posted (Function.update handled actor (handled actor ++ [msg])) := by
  obtain ⟨forwarded, hposted, hactors⟩ := h
  unfold Bus.take at htake
  split at htake
  · cases htake
  · rename_i first rest hmailbox
    cases htake
    refine ⟨forwarded, hposted, ?_⟩
    intro other
    obtain ⟨hlistening, hheard⟩ := hactors other
    refine ⟨hlistening, ?_⟩
    rw [← hheard]
    by_cases hother : other = actor
    · subst hother
      simp [hmailbox]
    · simp [Function.update_of_ne hother]

theorem Kept.heard (h : bus.Kept topic posted handled) (actor : ι) :
    handled actor ++ (bus.mailbox actor ++ hear topic actor (bus.listening actor) bus.queue) =
      hear topic actor [] posted := by
  obtain ⟨forwarded, hposted, hactors⟩ := h
  obtain ⟨hlistening, hheard⟩ := hactors actor
  rw [hposted, hear_append, ← hheard, ← hlistening, List.append_assoc]

theorem Kept.next (h : bus.Kept topic posted handled) {actor : ι} {msg : μ}
    (htake : bus.take actor = some (msg, bus')) :
    ∃ rest, handled actor ++ msg :: rest = hear topic actor [] posted := by
  rw [← h.heard actor]
  unfold Bus.take at htake
  split at htake
  · cases htake
  · rename_i first rest hmailbox
    cases htake
    rw [hmailbox]
    exact ⟨_, rfl⟩

end Kept

end Bus

end AntRelay.Base
