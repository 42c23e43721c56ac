import LproxyCv.Dns.DnsFrames
import LproxyCv.Dns.Forwarder
import LproxyCv.Foundation.Ring
import LproxyCv.Foundation.Run
import LproxyCv.Tunnels.TunMgr
import Mathlib.Algebra.Order.BigOperators.Group.List
import Mathlib.Data.List.TakeWhile

set_option autoImplicit false

/-!
# Keepalive: pings, answers and round trip times

Tunnels of both managers count the pings that have not been answered, and keep the last
round trip times with their sum.  `Keepalive` is the part of a tunnel that does this.  What
it holds after a run is said in terms of what has happened to it (`Accounts`), and both
kinds of tunnels do nothing else with it (`Tunnel.Lives.keepalive`,
`DnsTunnel.Lives.keepalive`).
-/

namespace LproxyCv

open Foundation Lws Tunnels Dns

/-! ## What happens to a tunnel -/

/-- One thing that happens to the keepalive of a tunnel. -/
inductive Happening where
  /-- a ping has gone out -/
  | pinged
  /-- a ping could not be sent -/
  | failed
  /-- no ping is sent, too many have not been answered -/
  | refused
  /-- a pong of eight bytes, `rtt` milliseconds after the time it carries -/
  | answered (rtt : Int)
  /-- any other frame, a pong of another length among them -/
  | other
  deriving DecidableEq, Repr

namespace Happening

/-- The peer has answered. -/
def isAnswer : Happening → Bool
  | .answered _ => true
  | _ => false

/-- It was time for a ping. -/
def isPing : Happening → Bool
  | .pinged | .failed | .refused => true
  | _ => false

/-- What the result of `sendPing` and what it has put into the channel say. -/
def ofPing (alive : Bool) (effects : List Effect) : Happening :=
  if alive then if effects = [] then .failed else .pinged else .refused

/-- What a frame says. -/
def ofFrame (msg : RMessage) (elapsed : UInt64) : Happening :=
  match readCmd msg.buf with
  | some (.pong, bs) => if bs.length = 8 then .answered (elapsed.toNat - leNat bs) else .other
  | _ => .other

end Happening

/-- A pong comes less than `2 ^ 60` milliseconds after the time it carries. -/
def Timely (msg : RMessage) (elapsed : UInt64) : Prop :=
  ∀ bs, readCmd msg.buf = some (.pong, bs) → bs.length = 8 → elapsed.toNat < leNat bs + 2 ^ 60

/-- The steps of one kind of tunnels: pings whenever the timer wants them, and the frames of
the peer. -/
inductive Lives {T : Type} (sendPing : T → UInt64 → Bool → Bool × T × List Effect)
    (onTunnelMsg : T → RMessage → UInt64 → T → Prop) : T → Happening → T → Prop where
  | ping (t : T) (elapsed : UInt64) (sent : Bool) :
      Lives sendPing onTunnelMsg t
        (.ofPing (sendPing t elapsed sent).1 (sendPing t elapsed sent).2.2)
        (sendPing t elapsed sent).2.1
  | frame {t t' : T} {msg : RMessage} {elapsed : UInt64} :
      onTunnelMsg t msg elapsed t' → Timely msg elapsed →
      Lives sendPing onTunnelMsg t (.ofFrame msg elapsed) t'

/-! ## What is to be kept

The past of a tunnel is given newest first. -/

/-- How many pings have been sent since the last answer. -/
def unanswered (past : List Happening) : Nat :=
  (past.takeWhile fun h => !h.isAnswer).count .pinged

/-- The round trip time that a happening adds to the samples: that of an answer, or, when a
ping goes out while others are unanswered, the time they have been out. -/
def sample (past : List Happening) : Happening → Option Int
  | .answered rtt => some rtt
  | .pinged => if 0 < unanswered past then some (unanswered past * keepAliveInterval) else none
  | _ => none

theorem unanswered_pinged (past : List Happening) :
    unanswered (.pinged :: past) = unanswered past + 1 := by
  simp [unanswered, Happening.isAnswer]

theorem unanswered_cons {h : Happening} (hanswer : h.isAnswer = false) (hping : h ≠ .pinged)
    (past : List Happening) : unanswered (h :: past) = unanswered past := by
  simp [unanswered, hanswer, hping]

/-- All samples, newest first. -/
def samples : List Happening → List Int
  | [] => []
  | h :: past => (sample past h).toList ++ samples past

/-- A peer that is silent since its last answer, or since the beginning, while no ping fails:
a ping is refused exactly when it is the seventh or a later one. -/
def SilenceCloses (hs : List Happening) : Prop :=
  ∀ {before silence after : List Happening} {happening : Happening},
    hs = before ++ silence ++ happening :: after →
    (∀ h, before.getLast? = some h → h.isAnswer = true) →
    (∀ h ∈ silence, h.isAnswer = false ∧ h ≠ .failed) → happening.isPing = true →
      (happening = .refused ↔ 6 ≤ silence.countP Happening.isPing)

/-- A peer that answers between any six pings and the time for the next one: no ping is
refused. -/
def AnswersKeep (hs : List Happening) : Prop :=
  (∀ {before part after : List Happening} {happening : Happening},
    hs = before ++ part ++ happening :: after → happening.isPing = true →
      6 ≤ part.count .pinged → ∃ h ∈ part, h.isAnswer = true) →
  .refused ∉ hs

/-! ## The keepalive of a tunnel -/

/-- What a tunnel keeps of its pings and their answers. -/
structure Keepalive where
  rtt : Rtt
  pingCount : UInt8

namespace Keepalive

/-- Nothing has happened yet. -/
def new : Keepalive := ⟨Rtt.new, 0⟩

/-- What each happening does. -/
inductive Step (k : Keepalive) : Happening → Keepalive → Prop where
  | pinged : k.pingCount.toNat ≤ 5 →
      Step k .pinged
        ⟨if 0 < k.pingCount then
            k.rtt.append (Int64.ofNat k.pingCount.toNat * Int64.ofNat keepAliveInterval)
          else k.rtt, k.pingCount + 1⟩
  | failed : k.pingCount.toNat ≤ 5 → Step k .failed k
  | refused : 5 < k.pingCount.toNat → Step k .refused k
  | answered (rtt : Int64) : 0 ≤ rtt.toInt → rtt.toInt < 2 ^ 60 →
      Step k (.answered rtt.toInt) ⟨k.rtt.append rtt, 0⟩
  | other : Step k .other k

/-- The keepalive is what its past says. -/
structure Accounts (k : Keepalive) (past : List Happening) : Prop where
  /-- five samples are kept -/
  length : k.rtt.rttQueue.length = 5
  /-- they are the last ones, and the sum is their sum -/
  tracks : Ring.Tracks (k.rtt.rttQueue.map Int64.toInt) k.rtt.rttIndex k.rtt.rttSum.toInt
    (samples past)
  /-- no sum of them overflows -/
  small : ∀ rtt ∈ k.rtt.rttQueue, 0 ≤ rtt.toInt ∧ rtt.toInt < 2 ^ 60
  /-- the pings that have been sent since the last answer are counted -/
  count : k.pingCount.toNat = unanswered past
  count_le : unanswered past ≤ 6

theorem accounts_new : new.Accounts [] where
  length := List.length_replicate
  tracks := Ring.tracks_replicate (n := 5) (by decide)
  small := by
    intro rtt hrtt
    rw [List.eq_of_mem_replicate hrtt]
    decide
  count := rfl
  count_le := Nat.zero_le 6

variable {k k' : Keepalive} {past : List Happening}

/-- A sample of less than `2 ^ 60` milliseconds is put in the place of the oldest one, and
the new sum is that of the numbers themselves. -/
theorem Accounts.append (h : k.Accounts past) {rtt : Int64} (hnonneg : 0 ≤ rtt.toInt)
    (hlt : rtt.toInt < 2 ^ 60) :
    (k.rtt.append rtt).rttQueue.length = 5 ∧
      Ring.Tracks ((k.rtt.append rtt).rttQueue.map Int64.toInt) (k.rtt.append rtt).rttIndex
        (k.rtt.append rtt).rttSum.toInt (rtt.toInt :: samples past) ∧
      ∀ rtt' ∈ (k.rtt.append rtt).rttQueue, 0 ≤ rtt'.toInt ∧ rtt'.toInt < 2 ^ 60 := by
  obtain ⟨old, hold⟩ : ∃ old, k.rtt.rttQueue.get ⟨k.rtt.rttIndex, k.rtt.rttIndex_lt⟩ = old :=
    ⟨_, rfl⟩
  have hmem : old ∈ k.rtt.rttQueue := by
    rw [← hold]
    exact List.get_mem _ _
  have hget : (k.rtt.rttQueue.map Int64.toInt)[k.rtt.rttIndex]? = some old.toInt := by
    rw [List.getElem?_map, List.getElem?_eq_getElem k.rtt.rttIndex_lt, ← hold]
    rfl
  have hsum : (k.rtt.rttSum + rtt - old).toInt = k.rtt.rttSum.toInt + rtt.toInt - old.toInt := by
    obtain ⟨hold0, hold60⟩ := h.small old hmem
    have hmem60 : ∀ x ∈ k.rtt.rttQueue.map Int64.toInt, 0 ≤ x ∧ x ≤ 2 ^ 60 := by
      intro x hx
      obtain ⟨rtt', hrtt', rfl⟩ := List.mem_map.mp hx
      exact ⟨(h.small rtt' hrtt').1, Int.le_of_lt (h.small rtt' hrtt').2⟩
    have hsum0 := List.sum_nonneg fun x hx => (hmem60 x hx).1
    have hsum60 := List.sum_le_card_nsmul _ _ fun x hx => (hmem60 x hx).2
    rw [← h.tracks.sum_eq] at hsum0 hsum60
    rw [List.length_map, h.length, nsmul_eq_mul] at hsum60
    have hadd : (k.rtt.rttSum + rtt).toInt = k.rtt.rttSum.toInt + rtt.toInt := by
      rw [Int64.toInt_add, Int.bmod_eq_of_le (by omega) (by omega)]
    rw [Int64.toInt_sub, hadd, Int.bmod_eq_of_le (by omega) (by omega)]
  refine ⟨?_, ?_, ?_⟩
  · simpa [Rtt.append] using h.length
  · have htracks := h.tracks.append hget rtt.toInt
    rw [← hsum, List.length_map, ← List.map_set, ← hold] at htracks
    exact htracks
  · intro rtt' hrtt'
    rcases List.mem_or_eq_of_mem_set hrtt' with hkept | rfl
    · exact h.small rtt' hkept
    · exact ⟨hnonneg, hlt⟩

theorem toInt_pingSample {n : Nat} (hn : n ≤ 5) :
    (Int64.ofNat n * Int64.ofNat keepAliveInterval).toInt = n * keepAliveInterval := by
  have hinterval : (Int64.ofNat keepAliveInterval).toInt = keepAliveInterval :=
    Int64.toInt_ofNat_of_lt (by decide)
  rw [Int64.toInt_mul, Int64.toInt_ofNat_of_lt (by omega), hinterval, keepAliveInterval,
    Int.bmod_eq_of_le (by omega) (by omega)]

/-- Every happening leaves the keepalive as its past says. -/
theorem Accounts.step (h : k.Accounts past) {happening : Happening}
    (hstep : Step k happening k') : k'.Accounts (happening :: past) := by
  cases hstep with
  | pinged hle =>
      have hcount : (k.pingCount + 1).toNat = k.pingCount.toNat + 1 := by
        rw [UInt8.toNat_add, UInt8.toNat_one, Nat.mod_eq_of_lt (by omega)]
      have hle' := h.count ▸ hle
      by_cases hpos : 0 < k.pingCount
      · have hpos' : 0 < unanswered past := h.count ▸ UInt8.lt_iff_toNat_lt.mp hpos
        have hsample := toInt_pingSample hle
        have hbounds : 0 ≤ (k.pingCount.toNat * keepAliveInterval : Int) ∧
            (k.pingCount.toNat * keepAliveInterval : Int) < 2 ^ 60 := by
          rw [keepAliveInterval]
          omega
        rw [← hsample] at hbounds
        obtain ⟨hlength, htracks, hsmall⟩ := h.append hbounds.1 hbounds.2
        rw [hsample, h.count] at htracks
        rw [if_pos hpos]
        exact ⟨hlength, by simpa [samples, sample, hpos', h.count] using htracks, hsmall,
          by rw [hcount, unanswered_pinged, h.count], by rw [unanswered_pinged]; omega⟩
      · have hzero : ¬ 0 < unanswered past := by
          rw [← h.count]
          exact fun hlt => hpos (UInt8.lt_iff_toNat_lt.mpr hlt)
        rw [if_neg hpos]
        exact ⟨h.length, by simpa [samples, sample, hzero] using h.tracks, h.small,
          by rw [hcount, unanswered_pinged, h.count], by rw [unanswered_pinged]; omega⟩
  | failed _ => exact ⟨h.length, h.tracks, h.small, h.count, h.count_le⟩
  | refused _ => exact ⟨h.length, h.tracks, h.small, h.count, h.count_le⟩
  | answered rtt hnonneg hlt =>
      obtain ⟨hlength, htracks, hsmall⟩ := h.append hnonneg hlt
      exact ⟨hlength, htracks, hsmall, rfl, Nat.zero_le 6⟩
  | other => exact ⟨h.length, h.tracks, h.small, h.count, h.count_le⟩

theorem Accounts.full_iff (h : k.Accounts past) : 5 < k.pingCount.toNat ↔ unanswered past = 6 := by
  have hcount := h.count
  have hle := h.count_le
  omega

/-- A ping is refused exactly when six are unanswered. -/
theorem Accounts.refused_iff (h : k.Accounts past) {happening : Happening}
    (hstep : Step k happening k') (hping : happening.isPing = true) :
    happening = .refused ↔ unanswered past = 6 := by
  rw [← h.full_iff]
  cases hstep with
  | pinged hroom => exact iff_of_false Happening.noConfusion (Nat.not_lt.mpr hroom)
  | failed hroom => exact iff_of_false Happening.noConfusion (Nat.not_lt.mpr hroom)
  | refused hfull => exact iff_of_true rfl hfull
  | answered _ _ _ => cases hping
  | other => cases hping

/-! ## Pings -/

/-- What `sendPing` returns, sends and leaves of the keepalive. -/
inductive PingCase (k : Keepalive) : Bool → List Effect → Keepalive → Prop where
  | refused : 5 < k.pingCount.toNat → PingCase k false [] k
  | pinged {effect : Effect} : k.pingCount.toNat ≤ 5 →
      PingCase k true [effect]
        ⟨if 0 < k.pingCount then
            k.rtt.append (Int64.ofNat k.pingCount.toNat * Int64.ofNat keepAliveInterval)
          else k.rtt, k.pingCount + 1⟩
  | failed : k.pingCount.toNat ≤ 5 → PingCase k true [] k

variable {alive : Bool} {effects : List Effect}

theorem PingCase.step (h : k.PingCase alive effects k') :
    k.Step (.ofPing alive effects) k' := by
  cases h with
  | refused hfull => exact .refused hfull
  | pinged hroom => exact .pinged hroom
  | failed hroom => exact .failed hroom

theorem PingCase.refuses_iff (h : k.PingCase alive effects k') :
    alive = false ↔ 5 < k.pingCount.toNat := by
  cases h with
  | refused hfull => exact iff_of_true rfl hfull
  | pinged hroom => exact iff_of_false Bool.noConfusion (Nat.not_lt.mpr hroom)
  | failed hroom => exact iff_of_false Bool.noConfusion (Nat.not_lt.mpr hroom)

/-! ## Runs -/

variable {hs : List Happening}

theorem Accounts.run {k₀ : Keepalive} (h : k₀.Accounts past) (hrun : Run Step k₀ hs k) :
    k.Accounts (hs.reverse ++ past) := by
  induction hrun generalizing past with
  | nil _ => exact h
  | cons hfirst _ ih =>
      rw [List.reverse_cons, List.append_assoc, List.singleton_append]
      exact ih (h.step hfirst)

/-- What the keepalive holds after a run is what the run says. -/
theorem run_accounts (hrun : Run Step new hs k) : k.Accounts hs.reverse := by
  have haccounts := accounts_new.run hrun
  rwa [List.append_nil] at haccounts

/-- Wherever a run wants a ping, it is refused exactly when six are unanswered. -/
theorem run_refused_iff (hrun : Run Step new hs k) {before after : List Happening}
    {happening : Happening} (hs_eq : hs = before ++ happening :: after)
    (hping : happening.isPing = true) :
    happening = .refused ↔ unanswered before.reverse = 6 := by
  rw [hs_eq] at hrun
  obtain ⟨k₁, hbefore, hrest⟩ := hrun.split
  cases hrest with
  | cons hstep _ => exact (run_accounts hbefore).refused_iff hstep hping

theorem unanswered_of_getLast {before : List Happening}
    (hlast : ∀ h, before.getLast? = some h → h.isAnswer = true) :
    unanswered before.reverse = 0 := by
  cases hhead : before.reverse with
  | nil => rfl
  | cons h past =>
      have hget : before.getLast? = some h := by
        rw [List.getLast?_eq_head?_reverse, hhead, List.head?_cons]
      simp [unanswered, hlast h hget]

/-- During a silence the count grows with the pings and stops at six. -/
theorem unanswered_of_silence {before silence after : List Happening}
    (hrun : Run Step new (before ++ silence ++ after) k)
    (hlast : ∀ h, before.getLast? = some h → h.isAnswer = true)
    (hsilence : ∀ h ∈ silence, h.isAnswer = false ∧ h ≠ .failed) :
    unanswered (before ++ silence).reverse = min 6 (silence.countP Happening.isPing) := by
  induction silence using List.reverseRecOn generalizing after with
  | nil => rw [List.append_nil, unanswered_of_getLast hlast, List.countP_nil, Nat.min_zero]
  | append_singleton silence h ih =>
      have hrun' : Run Step new (before ++ silence ++ (h :: after)) k := by
        simpa [List.append_assoc] using hrun
      have hbefore := ih hrun' fun h' hh' => hsilence h' (List.mem_append_left _ hh')
      have hrefused := run_refused_iff hrun' rfl
      obtain ⟨hno, hsent⟩ := hsilence h List.mem_concat_self
      rw [← List.append_assoc, List.reverse_append, List.reverse_singleton, List.singleton_append,
        List.countP_append]
      cases h with
      | pinged =>
          have hne := mt (hrefused rfl).mpr Happening.noConfusion
          rw [unanswered_pinged, List.countP_singleton]
          simp only [Happening.isPing, if_true]
          omega
      | failed => exact absurd rfl hsent
      | refused =>
          have hfull := (hrefused rfl).mp rfl
          rw [unanswered_cons rfl Happening.noConfusion, List.countP_singleton]
          simp only [Happening.isPing, if_true]
          omega
      | answered rtt => cases hno
      | other =>
          rw [unanswered_cons rfl Happening.noConfusion, hbefore]
          rfl

theorem run_silenceCloses (hrun : Run Step new hs k) : SilenceCloses hs := by
  intro before silence after happening hs_eq hlast hsilence hping
  rw [run_refused_iff hrun hs_eq hping,
    unanswered_of_silence (hs_eq ▸ hrun) hlast hsilence]
  omega

theorem run_answersKeep (hrun : Run Step new hs k) : AnswersKeep hs := by
  intro hanswers hmem
  obtain ⟨past, after, hs_eq⟩ := List.append_of_mem hmem
  have hfull := (run_refused_iff hrun hs_eq rfl).mp rfl
  -- the six pings are in the part of the past that no answer is in
  have hpast : past = (past.reverse.dropWhile fun h => !h.isAnswer).reverse ++
      (past.reverse.takeWhile fun h => !h.isAnswer).reverse := by
    rw [← List.reverse_append, List.takeWhile_append_dropWhile, List.reverse_reverse]
  obtain ⟨h, hh, hanswer⟩ := hanswers (by rw [← hpast]; exact hs_eq) rfl (by
    rw [List.count_reverse]
    exact Nat.le_of_eq hfull.symm)
  have hno := List.mem_takeWhile_imp (List.mem_reverse.mp hh)
  rw [hanswer] at hno
  cases hno

/-! ## Answers -/

theorem toInt_toInt64 {v : UInt64} (h : v.toNat < 2 ^ 63) : v.toInt64.toInt = v.toNat := by
  have hv := Int64.toInt_ofNat_of_lt h
  rwa [← UInt64.toInt64_ofNat', UInt64.ofNat_toNat] at hv

/-- The sample of a pong of eight bytes is the time since the one it carries. -/
theorem pongRtt_timely {bs : Bytes} {elapsed : UInt64} {rtt : Option Int64}
    (h : pongRtt bs elapsed = some rtt) (hlen : bs.length = 8)
    (htimely : elapsed.toNat < leNat bs + 2 ^ 60) :
    ∃ v, rtt = some v ∧ v.toInt = elapsed.toNat - leNat bs ∧ 0 ≤ v.toInt ∧ v.toInt < 2 ^ 60 := by
  rw [pongRtt_of_length hlen] at h
  split at h
  · cases h
  · rename_i hpast
    have htoNat : (elapsed - UInt64.ofNat (leNat bs)).toNat = elapsed.toNat - leNat bs := by
      have hsize := Nat.lt_of_le_of_lt (Nat.le_of_not_lt hpast) elapsed.toNat_lt
      rw [UInt64.toNat_sub_of_le, UInt64.toNat_ofNat_of_lt' hsize]
      rw [UInt64.le_iff_toNat_le, UInt64.toNat_ofNat_of_lt' hsize]
      omega
    have hvalue := toInt_toInt64 (v := elapsed - UInt64.ofNat (leNat bs)) (by omega)
    rw [htoNat] at hvalue
    cases h
    exact ⟨_, rfl, by omega, by omega, by omega⟩

/-- A pong of eight bytes is an answer, and one of another length is nothing. -/
theorem step_onPong (k : Keepalive) {bs : Bytes} {elapsed : UInt64} {rtt : Option Int64}
    (h : pongRtt bs elapsed = some rtt)
    (htimely : bs.length = 8 → elapsed.toNat < leNat bs + 2 ^ 60) :
    Step k (if bs.length = 8 then .answered (elapsed.toNat - leNat bs) else .other)
      (match rtt with
        | none => k
        | some sample => ⟨k.rtt.append sample, 0⟩) := by
  by_cases hlen : bs.length = 8
  · obtain ⟨v, rfl, hv, hnonneg, hlt⟩ := pongRtt_timely h hlen (htimely hlen)
    rw [if_pos hlen, ← hv]
    exact .answered v hnonneg hlt
  · rw [pongRtt_of_ne hlen] at h
    cases h
    rw [if_neg hlen]
    exact .other

end Keepalive

/-! ## Both kinds of tunnels -/

/-- What is right after a run of a tunnel of either kind. -/
structure KeptAlive {T : Type} (keepalive : T → Keepalive)
    (sendPing : T → UInt64 → Bool → Bool × T × List Effect)
    (pingEffects : (Channel → UInt64) → (Channel → Bool) → T → List Effect)
    (closeRawfd : T → Effect) (hs : List Happening) (t : T) : Prop where
  /-- the ring holds the last five samples, zeros where there are fewer -/
  queue : Ring.newestFirst ((keepalive t).rtt.rttQueue.map Int64.toInt) (keepalive t).rtt.rttIndex =
    Ring.lastOf 5 0 (samples hs.reverse)
  sum : (keepalive t).rtt.rttSum.toInt = ((keepalive t).rtt.rttQueue.map Int64.toInt).sum
  index_lt : (keepalive t).rtt.rttIndex < 5
  count : (keepalive t).pingCount.toNat = unanswered hs.reverse
  count_le : (keepalive t).pingCount.toNat ≤ 6
  /-- a ping is refused when six are unanswered -/
  refuses_iff : ∀ elapsed sent, (sendPing t elapsed sent).1 = false ↔ unanswered hs.reverse = 6
  /-- the timer shuts the connection down when six pings are unanswered -/
  closes_iff : ∀ elapsed sent,
    closeRawfd t ∈ pingEffects elapsed sent t ↔ unanswered hs.reverse = 6
  silence : SilenceCloses hs
  answers : AnswersKeep hs

/-- What is left for a kind of tunnels to show: that its steps are those of the keepalive, and
that a ping is refused, and the connection shut down, when the count is above five. -/
theorem keptAlive {T : Type} {keepalive : T → Keepalive}
    {sendPing : T → UInt64 → Bool → Bool × T × List Effect}
    {pingEffects : (Channel → UInt64) → (Channel → Bool) → T → List Effect}
    {closeRawfd : T → Effect} {hs : List Happening} {t : T}
    (hrun : Run Keepalive.Step Keepalive.new hs (keepalive t))
    (hrefuses : ∀ elapsed sent,
      (sendPing t elapsed sent).1 = false ↔ 5 < (keepalive t).pingCount.toNat)
    (hcloses : ∀ elapsed sent,
      closeRawfd t ∈ pingEffects elapsed sent t ↔ 5 < (keepalive t).pingCount.toNat) :
    KeptAlive keepalive sendPing pingEffects closeRawfd hs t := by
  have haccounts := Keepalive.run_accounts hrun
  have hlen : ((keepalive t).rtt.rttQueue.map Int64.toInt).length = 5 := by
    rw [List.length_map, haccounts.length]
  obtain ⟨hindex, hnewest, hsum⟩ := haccounts.tracks
  rw [hlen] at hindex hnewest
  exact
    { queue := hnewest
      sum := hsum
      index_lt := hindex
      count := haccounts.count
      count_le := haccounts.count.symm ▸ haccounts.count_le
      refuses_iff := fun elapsed sent => (hrefuses elapsed sent).trans haccounts.full_iff
      closes_iff := fun elapsed sent => (hcloses elapsed sent).trans haccounts.full_iff
      silence := Keepalive.run_silenceCloses hrun
      answers := Keepalive.run_answersKeep hrun }

namespace Tunnels.Tunnel

/-- The part of a tunnel that is its keepalive. -/
def keepalive (t : Tunnel) : Keepalive := ⟨t.rtt, t.pingCount⟩

/-- The steps of a tunnel of a tunnel manager. -/
def Lives : Tunnel → Happening → Tunnel → Prop :=
  LproxyCv.Lives sendPing fun t msg elapsed t' =>
    ∃ effects, t.onTunnelMsg msg elapsed = some (t', effects)

theorem sendPing_case (t : Tunnel) (elapsed : UInt64) (sent : Bool) :
    t.keepalive.PingCase (t.sendPing elapsed sent).1 (t.sendPing elapsed sent).2.2
      (t.sendPing elapsed sent).2.1.keepalive := by
  unfold sendPing
  split
  · rename_i hfull
    exact .refused (UInt8.lt_iff_toNat_lt.mp hfull)
  · rename_i hroom
    have hle : t.pingCount.toNat ≤ 5 := Nat.le_of_not_lt fun h => hroom (UInt8.lt_iff_toNat_lt.mpr h)
    cases sent with
    | true => exact .pinged hle
    | false => exact .failed hle

theorem pingEffects_closes_iff (t : Tunnel) (elapsed : Channel → UInt64) (sent : Channel → Bool) :
    t.closeRawfd ∈ TunMgr.pingEffects elapsed sent t ↔ 5 < t.keepalive.pingCount.toNat := by
  rw [← (t.sendPing_case (elapsed t.tx) (sent t.tx)).refuses_iff]
  unfold TunMgr.pingEffects sendPing
  split
  · simp [closeRawfd]
  · split <;> simp [closeRawfd]

theorem keepalive_freeRequestTx (t : Tunnel) (reqIdx reqTag : UInt16) :
    (t.freeRequestTx reqIdx reqTag).keepalive = t.keepalive := by
  unfold freeRequestTx
  split
  · rfl
  · split <;> rfl

theorem step_onPong {t t' : Tunnel} {bs : Bytes} {elapsed : UInt64}
    (h : t.onPong bs elapsed = some t')
    (htimely : bs.length = 8 → elapsed.toNat < leNat bs + 2 ^ 60) :
    t.keepalive.Step (if bs.length = 8 then .answered (elapsed.toNat - leNat bs) else .other)
      t'.keepalive := by
  simp only [onPong, Option.bind_eq_bind, Option.bind_eq_some_iff] at h
  obtain ⟨rtt, hrtt, h⟩ := h
  have hstep := t.keepalive.step_onPong hrtt htimely
  cases rtt with
  | none =>
      cases h
      exact hstep
  | some sample =>
      cases h
      exact hstep

/-- A frame is an answer or leaves the keepalive as it is. -/
theorem step_onTunnelMsg {t t' : Tunnel} {msg : RMessage} {elapsed : UInt64}
    {effects : List Effect} (h : t.onTunnelMsg msg elapsed = some (t', effects))
    (htimely : Timely msg elapsed) :
    t.keepalive.Step (.ofFrame msg elapsed) t'.keepalive := by
  obtain ⟨b, hcase⟩ := onTunnelMsg_cases h
  unfold Happening.ofFrame
  cases hcase with
  | data hread _ =>
      rw [hread]
      exact .other
  | finished hread _ =>
      rw [hread, keepalive_freeRequestTx]
      exact .other
  | closed hread _ =>
      rw [hread]
      exact .other
  | @pong bs _ hread hpong =>
      have hstep := step_onPong hpong (htimely bs hread)
      rw [hread]
      exact hstep
  | @other cmd bs _ hread _ hcmd =>
      rw [hread]
      cases cmd with
      | pong => exact absurd rfl hcmd
      | _ => exact .other

/-- A tunnel does nothing else with its keepalive. -/
theorem Lives.keepalive {t t' : Tunnel} {happening : Happening} (h : t.Lives happening t') :
    t.keepalive.Step happening t'.keepalive := by
  cases h with
  | ping elapsed sent => exact (t.sendPing_case elapsed sent).step
  | frame hframe htimely =>
      obtain ⟨_, hframe⟩ := hframe
      exact step_onTunnelMsg hframe htimely

end Tunnels.Tunnel

namespace Dns.DnsTunnel

/-- The part of a tunnel that is its keepalive. -/
def keepalive (t : DnsTunnel) : Keepalive := ⟨t.rtt, t.pingCount⟩

/-- The steps of a tunnel of the forwarder. -/
def Lives : DnsTunnel → Happening → DnsTunnel → Prop :=
  LproxyCv.Lives sendPing fun t msg elapsed t' =>
    ∃ unicode fuel sent effects, t.onTunnelMsg unicode fuel msg elapsed sent = .ok (t', effects)

theorem sendPing_case (t : DnsTunnel) (elapsed : UInt64) (sent : Bool) :
    t.keepalive.PingCase (t.sendPing elapsed sent).1 (t.sendPing elapsed sent).2.2
      (t.sendPing elapsed sent).2.1.keepalive := by
  unfold sendPing
  split
  · rename_i hfull
    exact .refused (UInt8.lt_iff_toNat_lt.mp hfull)
  · rename_i hroom
    have hle : t.pingCount.toNat ≤ 5 := Nat.le_of_not_lt fun h => hroom (UInt8.lt_iff_toNat_lt.mpr h)
    cases sent with
    | true => exact .pinged hle
    | false => exact .failed hle

theorem pingEffects_closes_iff (t : DnsTunnel) (elapsed : Channel → UInt64) (sent : Channel → Bool) :
    t.closeRawfd ∈ Forwarder.pingEffects elapsed sent t ↔ 5 < t.keepalive.pingCount.toNat := by
  rw [← (t.sendPing_case (elapsed t.tx) (sent t.tx)).refuses_iff]
  unfold Forwarder.pingEffects sendPing
  split
  · simp [closeRawfd]
  · split <;> simp [closeRawfd]

theorem step_onPong {t t' : DnsTunnel} {bs : Bytes} {elapsed : UInt64}
    (h : t.onPong bs elapsed = some t')
    (htimely : bs.length = 8 → elapsed.toNat < leNat bs + 2 ^ 60) :
    t.keepalive.Step (if bs.length = 8 then .answered (elapsed.toNat - leNat bs) else .other)
      t'.keepalive := by
  simp only [onPong, Option.bind_eq_bind, Option.bind_eq_some_iff] at h
  obtain ⟨rtt, hrtt, h⟩ := h
  have hstep := t.keepalive.step_onPong hrtt htimely
  cases rtt with
  | none =>
      cases h
      exact hstep
  | some sample =>
      cases h
      exact hstep

/-- A frame is an answer or leaves the keepalive as it is. -/
theorem step_onTunnelMsg {unicode : UnicodeLower} {fuel : Nat} {t t' : DnsTunnel}
    {msg : RMessage} {elapsed : UInt64} {sent : Bool} {effects : List DnsEffect}
    (h : t.onTunnelMsg unicode fuel msg elapsed sent = .ok (t', effects))
    (htimely : Timely msg elapsed) :
    t.keepalive.Step (.ofFrame msg elapsed) t'.keepalive := by
  unfold onTunnelMsg at h
  unfold Happening.ofFrame
  cases hread : readCmd msg.buf with
  | none =>
      rw [hread] at h
      cases h
  | some r =>
      obtain ⟨cmd, bs⟩ := r
      rw [hread] at h
      cases cmd with
      | pong =>
          cases hpong : t.onPong bs elapsed with
          | none =>
              simp only [hpong] at h
              cases h
          | some t'' =>
              simp only [hpong, Outcome.ok.injEq, Prod.mk.injEq] at h
              obtain ⟨rfl, _⟩ := h
              exact step_onPong hpong (htimely bs hread)
      | ping =>
          cases hreply : t.replyPing msg with
          | none =>
              simp only [hreply] at h
              cases h
          | some effect =>
              simp only [hreply] at h
              cases h
              exact .other
      | reqData =>
          obtain ⟨_, _, hok⟩ := Outcome.bind_eq_ok_iff.mp h
          cases hok
          exact .other
      | _ =>
          cases h
          exact .other

/-- A tunnel does nothing else with its keepalive. -/
theorem Lives.keepalive {t t' : DnsTunnel} {happening : Happening} (h : t.Lives happening t') :
    t.keepalive.Step happening t'.keepalive := by
  cases h with
  | ping elapsed sent => exact (t.sendPing_case elapsed sent).step
  | frame hframe htimely =>
      obtain ⟨_, _, _, _, hframe⟩ := hframe
      exact step_onTunnelMsg hframe htimely

end Dns.DnsTunnel

/-- A ping, its answer after seven milliseconds, two more pings and one that fails. -/
def answeredOnce : List Happening := [.pinged, .answered 7, .pinged, .pinged, .failed]

end LproxyCv
