import Mathlib.Logic.Embedding.Basic
import Mathlib.Tactic.Common
import OmpBundler.Library.OrderedMap
import OmpBundler.Library.Transition

/-!
The pending authorizations of the Pumble adapter.

`handleOAuthStart` hands out a state and a nonce, which `handleOAuthCallback`
redeems: the state comes back in the query, the nonce in a cookie. Whoever
reaches the adapter may call either of them, in any order and with anything.
The two are drawn at random, and no two draws are equal; reading them from
the request is left out.
-/

namespace OmpBundler.Pumble

open Library

def oauthStateTtlMs : ℤ := 10 * 60 * 1000
def maxOAuthStates : ℕ := 1000

/-- What `crypto.randomBytes` gives, draw by draw. -/
structure RandomTokens where
  draw : ℕ ↪ String
  draw_ne_empty : ∀ n, draw n ≠ ""

structure OAuthEntry where
  nonce : String
  expiresAt : ℤ
  deriving DecidableEq, Repr

/-- An authorization that has been started. -/
structure OAuthStart where
  state : String
  nonce : String
  at' : ℤ
  deriving DecidableEq, Repr

structure OAuthStates where
  now : ℤ
  states : OrderedMap String OAuthEntry
  /-- The number of draws so far. -/
  drawn : ℕ
  /-- The authorizations that were started, and the states that have been
  redeemed; the adapter does not keep these. -/
  started : List OAuthStart
  redeemed : List String

namespace OAuthStates

def initial (now : ℤ) : OAuthStates := ⟨now, .empty, 0, [], []⟩

/-! ### The code -/

def pruneOAuthStates (s : OAuthStates) : OAuthStates :=
  { s with states := s.states.filter fun _ entry => !decide (entry.expiresAt ≤ s.now) }

/-- Whether the client is redirected is the second component. -/
def handleOAuthStart (tokens : RandomTokens) (s : OAuthStates) : OAuthStates × Bool :=
  let s := s.pruneOAuthStates
  if maxOAuthStates ≤ s.states.size then (s, false)
  else
    let state := tokens.draw s.drawn
    let nonce := tokens.draw (s.drawn + 1)
    ({ s with
      states := s.states.set state ⟨nonce, s.now + oauthStateTtlMs⟩
      drawn := s.drawn + 2
      started := s.started ++ [⟨state, nonce, s.now⟩] }, true)

/-- The answer is the second component. -/
def consumeOAuthState (s : OAuthStates) (state nonce : String) : OAuthStates × Bool :=
  if state = "" ∨ nonce = "" then (s, false)
  else
    match s.states.get state with
    | none => (s.pruneOAuthStates, false)
    | some entry =>
        if entry.nonce ≠ nonce then (s.pruneOAuthStates, false)
        else ({ s with states := s.states.delete state }, decide (s.now < entry.expiresAt))

/-- The beginning of the callback; a state that is accepted is remembered as
redeemed. -/
def handleOAuthCallback (s : OAuthStates) (state nonce : String) : OAuthStates :=
  let (t, accepted) := s.consumeOAuthState state nonce
  if accepted then { t with redeemed := t.redeemed ++ [state] } else t

inductive Action where
  | tick (ms : ℕ)
  | start
  | callback (state nonce : String)
  deriving DecidableEq, Repr

/-- The adapter, from its start on. -/
def machine (tokens : RandomTokens) : Transition.Machine OAuthStates Action where
  init s := ∃ now, s = initial now
  step s
    | .tick ms => some { s with now := s.now + ms }
    | .start => some (s.handleOAuthStart tokens).1
    | .callback state nonce => some (s.handleOAuthCallback state nonce)

/-! ### What is redeemed -/

/-- What the adapter keeps are authorizations that were started and not
redeemed, among them all that have not expired. -/
structure Sound (tokens : RandomTokens) (s : OAuthStates) : Prop where
  bounded : s.states.size ≤ maxOAuthStates
  kept : ∀ state entry, s.states.get state = some entry → ∃ x ∈ s.started,
    x.state = state ∧ x.nonce = entry.nonce ∧ entry.expiresAt = x.at' + oauthStateTtlMs ∧
      state ∉ s.redeemed
  pending : ∀ x ∈ s.started, s.now < x.at' + oauthStateTtlMs → x.state ∉ s.redeemed →
    s.states.get x.state = some ⟨x.nonce, x.at' + oauthStateTtlMs⟩
  drawn : ∀ x ∈ s.started, ∃ n < s.drawn, ∃ m, x.state = tokens.draw n ∧ x.nonce = tokens.draw m
  distinct : (s.started.map (·.state)).Nodup
  known : ∀ state ∈ s.redeemed, ∃ x ∈ s.started, x.state = state
  once : s.redeemed.Nodup

variable {tokens : RandomTokens} {s t : OAuthStates}

theorem sound_initial (now : ℤ) : Sound tokens (initial now) where
  bounded := Nat.zero_le _
  kept state entry found := by simp [initial] at found
  pending x mem := by simp [initial] at mem
  drawn x mem := by simp [initial] at mem
  distinct := List.nodup_nil
  known state mem := by simp [initial] at mem
  once := List.nodup_nil

theorem get_pruneOAuthStates {state : String} {entry : OAuthEntry} :
    s.pruneOAuthStates.states.get state = some entry ↔
      s.states.get state = some entry ∧ s.now < entry.expiresAt := by
  simp [pruneOAuthStates, OrderedMap.get_filter]

theorem Sound.prune (h : s.Sound tokens) : s.pruneOAuthStates.Sound tokens where
  bounded := Nat.le_trans (OrderedMap.size_filter_le _ _) h.bounded
  kept state entry found := h.kept state entry (get_pruneOAuthStates.mp found).1
  pending x mem fresh open' :=
    get_pruneOAuthStates.mpr ⟨h.pending x mem fresh open', fresh⟩
  drawn := h.drawn
  distinct := h.distinct
  known := h.known
  once := h.once

theorem Sound.tick (h : s.Sound tokens) (ms : ℕ) : Sound tokens { s with now := s.now + ms } where
  bounded := h.bounded
  kept := h.kept
  pending x mem fresh open' := h.pending x mem (by simp only at fresh; omega) open'
  drawn := h.drawn
  distinct := h.distinct
  known := h.known
  once := h.once

/-- Two authorizations with the same state are the same. -/
theorem Sound.unique (h : s.Sound tokens) {x y : OAuthStart} (left : x ∈ s.started)
    (right : y ∈ s.started) (same : x.state = y.state) : x = y :=
  List.inj_on_of_nodup_map h.distinct left right same

theorem Sound.start (h : s.Sound tokens) : (s.handleOAuthStart tokens).1.Sound tokens := by
  have pruned := h.prune
  simp only [handleOAuthStart]
  generalize s.pruneOAuthStates = u at pruned
  split_ifs with full
  · exact pruned
  -- the new state has not been drawn before
  · have fresh : ∀ x ∈ u.started, x.state ≠ tokens.draw u.drawn := by
      intro x mem same
      obtain ⟨n, before, -, drawn, -⟩ := pruned.drawn x mem
      have := tokens.draw.injective (drawn.symm.trans same)
      omega
    have unredeemed : tokens.draw u.drawn ∉ u.redeemed := by
      intro mem
      obtain ⟨x, started, same⟩ := pruned.known _ mem
      exact fresh x started same
    refine ⟨?_, fun state entry found => ?_, fun x mem within unspent => ?_, fun x mem => ?_, ?_,
      fun state mem => ?_, pruned.once⟩
    · have grown := u.states.size_set (tokens.draw u.drawn)
        ⟨tokens.draw (u.drawn + 1), u.now + oauthStateTtlMs⟩
      simp only
      split at grown <;> omega
    · rw [OrderedMap.get_set] at found
      split at found
      · case isTrue same =>
          obtain rfl := Option.some.inj found
          exact ⟨_, List.mem_append_right _ (List.mem_singleton_self _), same, rfl, rfl,
            same ▸ unredeemed⟩
      · obtain ⟨x, started, rest⟩ := pruned.kept state entry found
        exact ⟨x, List.mem_append_left _ started, rest⟩
    · rw [OrderedMap.get_set]
      rcases List.mem_append.mp mem with old | new
      · rw [if_neg (fresh x old).symm]
        exact pruned.pending x old within unspent
      · obtain rfl := List.mem_singleton.mp new
        rw [if_pos rfl]
    · rcases List.mem_append.mp mem with old | new
      · obtain ⟨n, before, rest⟩ := pruned.drawn x old
        exact ⟨n, by simp only; omega, rest⟩
      · obtain rfl := List.mem_singleton.mp new
        exact ⟨u.drawn, by simp, u.drawn + 1, rfl, rfl⟩
    · rw [List.map_append, List.map_singleton]
      refine List.Nodup.append pruned.distinct (List.nodup_singleton _) ?_
      rintro state old new
      obtain ⟨x, started, rfl⟩ := List.mem_map.mp old
      exact fresh x started (List.mem_singleton.mp new)
    · obtain ⟨x, started, same⟩ := pruned.known state mem
      exact ⟨x, List.mem_append_left _ started, same⟩

/-- An entry that is redeemed, or has expired, is deleted. -/
theorem Sound.delete (h : s.Sound tokens) {state : String} {entry : OAuthEntry}
    (found : s.states.get state = some entry) {redeemed : List String}
    (spent : redeemed = s.redeemed ++ [state] ∨ (redeemed = s.redeemed ∧ ¬ s.now < entry.expiresAt)) :
    Sound tokens { s with states := s.states.delete state, redeemed } := by
  obtain ⟨x, started, same, -, expiry, unspent⟩ := h.kept state entry found
  have grows {other : String} (mem : other ∈ redeemed) : other ∈ s.redeemed ∨ other = state := by
    rcases spent with rfl | ⟨rfl, -⟩
    · simpa using mem
    · exact .inl mem
  have kept {other : String} (mem : other ∈ s.redeemed) : other ∈ redeemed := by
    rcases spent with rfl | ⟨rfl, -⟩
    · exact List.mem_append_left _ mem
    · exact mem
  refine ⟨?_, fun other entry' there => ?_, fun y mem within unspent' => ?_, h.drawn, h.distinct,
    fun other mem => ?_, ?_⟩
  · have shrunk := s.states.size_delete state
    have := h.bounded
    simp only
    omega
  · rw [OrderedMap.get_delete] at there
    split_ifs at there with apart
    obtain ⟨y, mem, same', nonce, expiry', unspent'⟩ := h.kept other entry' there
    exact ⟨y, mem, same', nonce, expiry', fun mem => (grows mem).elim unspent' (Ne.symm apart)⟩
  · rw [OrderedMap.get_delete]
    split_ifs with here
    · exfalso
      obtain rfl := h.unique started mem (same.trans here)
      rcases spent with rfl | ⟨rfl, expired⟩
      · exact unspent' (List.mem_append_right _ (List.mem_singleton.mpr same))
      · exact expired (expiry ▸ within)
    · exact h.pending y mem within fun old => unspent' (kept old)
  · rcases grows mem with old | rfl
    · exact h.known other old
    · exact ⟨x, started, same⟩
  · rcases spent with rfl | ⟨rfl, -⟩
    · exact List.Nodup.append h.once (List.nodup_singleton _) (by simpa using unspent)
    · exact h.once

theorem Sound.callback (h : s.Sound tokens) (state nonce : String) :
    (s.handleOAuthCallback state nonce).Sound tokens := by
  simp only [handleOAuthCallback, consumeOAuthState]
  by_cases empty : state = "" ∨ nonce = ""
  · simpa [empty] using h
  · simp only [if_neg empty]
    cases found : s.states.get state with
    | none => exact h.prune
    | some entry =>
        by_cases other : entry.nonce ≠ nonce
        · simpa [other] using h.prune
        · simp only [if_neg other]
          split
          · exact h.delete found (.inl rfl)
          · case isFalse expired => exact h.delete found (.inr ⟨rfl, by simpa using expired⟩)

theorem Sound.step {a : Action} (h : s.Sound tokens) (taken : (machine tokens).step s a = some t) :
    t.Sound tokens := by
  cases a with
  | tick ms => exact Option.some.inj taken ▸ h.tick ms
  | start => exact Option.some.inj taken ▸ h.start
  | callback state nonce => exact Option.some.inj taken ▸ h.callback state nonce

end OAuthStates

end OmpBundler.Pumble
