import Spexis.Verification.V1.Pipeline

/-! # Encoder cache and encoder budget

Every allocation is paid for, but the inputs of one request are checked one at a time against the
same free slots. -/

namespace Spexis.V1

open Python Transition

namespace Scheduling

variable {cfg : Config} {s : Scheduler} {st st' : Scheduling} {q : ReqId}

/-! ## The encoder's side of a call -/

/-- The total length of the encoder inputs scheduled so far. -/
def scheduledEncoderTokens (st : Scheduling) : ℤ :=
  (st.scheduledEncoderInputs.map fun item => (st.request item.1).encoderTokens item.2).sum

/-- Each placeholder that overlaps the token range is cached. -/
def Covered (st : Scheduling) (q : ReqId) (numComputedTokens n : ℕ) : Prop :=
  ∀ j position, (st.request q).mmPositions[j]? = some position →
    position.offset < numComputedTokens + n → numComputedTokens < position.offset + position.length →
      j ∈ st.encoderCacheManager.cached q

/-- What the moves of a call keep true of the encoder cache. -/
structure Encoding (cfg : Config) (s : Scheduler) (st : Scheduling) : Prop where
  mmPositions : ∀ p, (st.request p).mmPositions = (s.request p).mmPositions
  nodup : ∀ p, (st.encoderCacheManager.cached p).Nodup
  live : ∀ p ∉ s.requests, st.encoderCacheManager.cached p = []
  slots : st.encoderCacheManager.numFreeSlots +
    st.encoderCacheManager.slotsUsed st.request s.requests = cfg.encoderCacheSize
  keys : ∀ item ∈ st.scheduledEncoderInputs, item.1 ∈ st.scheduled
  budget : st.encoderBudget + st.scheduledEncoderTokens = cfg.maxNumEncoderInputTokens
  budget_nonneg : 0 ≤ st.encoderBudget
  origin : ∀ p, ∀ j ∈ st.encoderCacheManager.cached p,
    (∃ inputs, (p, inputs) ∈ st.scheduledEncoderInputs ∧ j ∈ inputs) ∨
      j ∈ s.encoderCacheManager.cached p
  covered : ∀ item ∈ st.numScheduledTokens,
    st.Covered item.1 (st.request item.1).numComputedTokens item.2

theorem tryScheduleEncoderInputs_choice (cfg : Config) (st : Scheduling) (q : ReqId) (c : ℕ)
    (n : ℤ) : EncoderChoice st.encoderCacheManager q (st.request q) 0 st.encoderBudget
      (st.tryScheduleEncoderInputs cfg q c n) := by
  unfold tryScheduleEncoderInputs
  dsimp only
  split_ifs
  · exact tryScheduleEncoderInputsLoop_choice n (List.drop_zero).symm _
  · exact .stop _ _ _ _ _ _

theorem tryScheduleEncoderInputs_covers {c : ℕ} {n : ℤ} (hordered : (st.request q).Ordered)
    (hpos : 0 < (st.tryScheduleEncoderInputs cfg q c n).2.1) {j : ℕ} {position : PlaceholderRange}
    (hj : (st.request q).mmPositions[j]? = some position)
    (hreached : (position.offset : ℤ) < c + (st.tryScheduleEncoderInputs cfg q c n).2.1)
    (hahead : c < position.offset + position.length) :
    j ∈ (st.tryScheduleEncoderInputs cfg q c n).1 ∨ j ∈ st.encoderCacheManager.cached q := by
  have hinputs : (st.request q).hasEncoderInputs = true := by
    rw [Request.hasEncoderInputs, decide_eq_true_iff]
    exact List.ne_nil_of_mem (List.mem_of_getElem? hj)
  rw [tryScheduleEncoderInputs, if_pos hinputs] at hpos hreached ⊢
  have hcovers := tryScheduleEncoderInputsLoop_covers hordered _ hpos hj hreached hahead
  rwa [Nat.zero_add] at hcovers

/-- A move that neither schedules a request nor touches the encoder cache. -/
theorem Encoding.congr (h : Encoding cfg s st)
    (hcache : st'.encoderCacheManager = st.encoderCacheManager)
    (hbudget : st'.encoderBudget = st.encoderBudget)
    (hinputs : st'.scheduledEncoderInputs = st.scheduledEncoderInputs)
    (hnum : st'.numScheduledTokens = st.numScheduledTokens)
    (hmm : ∀ p, (st'.request p).mmPositions = (st.request p).mmPositions)
    (hcomputed : ∀ p ∈ st.scheduled,
      (st'.request p).numComputedTokens = (st.request p).numComputedTokens) :
    Encoding cfg s st' := by
  have htokens : st'.scheduledEncoderTokens = st.scheduledEncoderTokens := by
    rw [scheduledEncoderTokens, scheduledEncoderTokens, hinputs]
    simp only [Request.encoderTokens_congr (hmm _)]
  refine ⟨fun p => (hmm p).trans (h.mmPositions p), ?_, ?_, ?_, ?_, ?_, ?_, ?_, ?_⟩
  · rw [hcache]
    exact h.nodup
  · rw [hcache]
    exact h.live
  · rw [EncoderCacheManager.slotsUsed_congr (congrArg _ hcache) (fun p _ => hmm p), hcache]
    exact h.slots
  · rw [hinputs, scheduled, hnum]
    exact h.keys
  · rw [hbudget, htokens]
    exact h.budget
  · rw [hbudget]
    exact h.budget_nonneg
  · rw [hcache, hinputs]
    exact h.origin
  · rw [hnum]
    intro item hitem
    have hmem : item.1 ∈ st.scheduled := List.mem_map_of_mem hitem
    have hcovered := h.covered item hitem
    rw [Covered, hmm, hcache, hcomputed _ hmem]
    exact hcovered

theorem assignEncoderInputs_encoderCacheManager (st : Scheduling) (q : ReqId) (inputs : List ℕ)
    (encoderBudget : ℤ) : (st.assignEncoderInputs q inputs encoderBudget).encoderCacheManager =
      inputs.foldl (fun e i => e.allocate q (st.request q) i) st.encoderCacheManager := by
  unfold assignEncoderInputs
  split_ifs with hnil
  · rw [hnil, List.foldl_nil]
  · rfl

theorem assignEncoderInputs_frame (st : Scheduling) (q : ReqId) (inputs : List ℕ)
    (encoderBudget : ℤ) :
    (st.assignEncoderInputs q inputs encoderBudget).request = st.request ∧
      (st.assignEncoderInputs q inputs encoderBudget).numScheduledTokens =
        st.numScheduledTokens := by
  unfold assignEncoderInputs
  split_ifs
  exacts [⟨rfl, rfl⟩, ⟨rfl, rfl⟩]

/-- The inputs join those of the step, and the budget pays for them. -/
theorem assignEncoderInputs_budget {inputs : List ℕ} {encoderBudget : ℤ}
    (hnew : ∀ item ∈ st.scheduledEncoderInputs, item.1 ≠ q)
    (hbudget : encoderBudget = st.encoderBudget - (st.request q).encoderTokens inputs) :
    (st.assignEncoderInputs q inputs encoderBudget).encoderBudget = encoderBudget ∧
      (st.assignEncoderInputs q inputs encoderBudget).scheduledEncoderTokens =
        st.scheduledEncoderTokens + (st.request q).encoderTokens inputs ∧
      ∀ item, item ∈ (st.assignEncoderInputs q inputs encoderBudget).scheduledEncoderInputs ↔
        item ∈ st.scheduledEncoderInputs ∨ inputs ≠ [] ∧ item = (q, inputs) := by
  have hnot : q ∉ st.scheduledEncoderInputs.map Prod.fst := by
    rintro hmem
    obtain ⟨item, hitem, heq⟩ := List.mem_map.mp hmem
    exact hnew item hitem heq
  unfold assignEncoderInputs
  split_ifs with hnil
  · subst hnil
    rw [Request.encoderTokens_nil, sub_zero] at hbudget
    exact ⟨hbudget.symm, by simp, by simp⟩
  · refine ⟨rfl, ?_, fun item => ?_⟩
    · simp [scheduledEncoderTokens, dictSet_of_notMem hnot]
    · simp [dictSet_of_notMem hnot, hnil]

/-- A request is scheduled with the inputs chosen for it. -/
theorem Encoding.assign {c n : ℕ} {n₀ encoderBudget : ℤ} {inputs : List ℕ} (h : Encoding cfg s st)
    (hrequests : s.requests.Nodup) (hq : q ∈ s.requests) (hsched : q ∉ st.scheduled)
    (hordered : (s.request q).Ordered) (hpos : 0 < n)
    (hencoder : st.tryScheduleEncoderInputs cfg q c n₀ = (inputs, (n : ℤ), encoderBudget))
    (hcache : st'.encoderCacheManager = st.encoderCacheManager)
    (hbudget : st'.encoderBudget = st.encoderBudget)
    (hinputs : st'.scheduledEncoderInputs = st.scheduledEncoderInputs)
    (hnum : st'.numScheduledTokens = dictSet st.numScheduledTokens q n)
    (hmm : ∀ p, (st'.request p).mmPositions = (st.request p).mmPositions)
    (hself : (st'.request q).numComputedTokens = c)
    (hcomputed : ∀ p ≠ q, (st'.request p).numComputedTokens = (st.request p).numComputedTokens) :
    Encoding cfg s (st'.assignEncoderInputs q inputs encoderBudget) := by
  obtain ⟨hnodup, -, hnew, hpaid, hnonneg⟩ := hencoder ▸ tryScheduleEncoderInputs_choice cfg st q c n₀
  dsimp only at hnodup hnew hpaid hnonneg
  have hkey : ∀ item ∈ st'.scheduledEncoderInputs, item.1 ≠ q := by
    rw [hinputs]
    exact fun item hitem heq => hsched (heq ▸ h.keys item hitem)
  have htokens : (st'.request q).encoderTokens = (st.request q).encoderTokens :=
    Request.encoderTokens_congr (hmm q)
  have hrest : encoderBudget = st'.encoderBudget - (st'.request q).encoderTokens inputs := by
    rw [htokens, hbudget]
    exact hpaid
  obtain ⟨hleft, htotal, hmem⟩ := assignEncoderInputs_budget hkey hrest
  have htakes := EncoderCacheManager.foldl_allocate_takes (r := st'.request q) hnodup hnew
  rw [← hcache, ← assignEncoderInputs_encoderCacheManager st' q inputs encoderBudget, hcache]
    at htakes
  obtain ⟨hrequest, hnum'⟩ := assignEncoderInputs_frame st' q inputs encoderBudget
  have hsum : st'.scheduledEncoderTokens = st.scheduledEncoderTokens := by
    rw [scheduledEncoderTokens, scheduledEncoderTokens, hinputs]
    simp only [Request.encoderTokens_congr (hmm _)]
  have hkeys : (st'.assignEncoderInputs q inputs encoderBudget).scheduled =
      st.scheduled ++ [q] := by
    rw [scheduled, hnum', hnum, dictSet_of_notMem hsched, List.map_append]
    rfl
  refine ⟨fun p => ?_, fun p => ?_, fun p hp => ?_, ?_, fun item hitem => ?_, ?_, ?_, ?_, ?_⟩
  · rw [hrequest, hmm, h.mmPositions]
  · by_cases hp : p = q
    · subst hp
      rw [htakes.cached]
      exact (h.nodup p).append hnodup fun j hj hj' => hnew j hj' hj
    · rw [htakes.other p hp]
      exact h.nodup p
  · have hne : p ≠ q := fun heq => hp (heq ▸ hq)
    rw [htakes.other p hne]
    exact h.live p hp
  · have htotals := htakes.total
    rw [htokens] at htotals
    rw [EncoderCacheManager.add_slotsUsed hrequests hq htakes.other
      (fun p => by rw [hrequest]; exact hmm p) htotals]
    exact h.slots
  · rw [hkeys, List.mem_append, List.mem_singleton]
    rcases (hmem item).mp hitem with hitem | ⟨-, rfl⟩
    · rw [hinputs] at hitem
      exact .inl (h.keys item hitem)
    · exact .inr rfl
  · rw [hleft, htotal, hsum, htokens, hpaid, ← h.budget]
    ring
  · rw [hleft]
    exact hnonneg h.budget_nonneg
  · intro p j hj
    have hold : j ∈ st.encoderCacheManager.cached p → (∃ inputs',
        (p, inputs') ∈ (st'.assignEncoderInputs q inputs encoderBudget).scheduledEncoderInputs ∧
          j ∈ inputs') ∨ j ∈ s.encoderCacheManager.cached p := by
      intro hj
      rcases h.origin p j hj with ⟨inputs', hitem, hin⟩ | hin
      · exact .inl ⟨inputs', (hmem _).mpr (.inl (hinputs ▸ hitem)), hin⟩
      · exact .inr hin
    by_cases hp : p = q
    · subst hp
      rw [htakes.cached, List.mem_append] at hj
      rcases hj with hj | hj
      · exact hold hj
      · exact .inl ⟨inputs, (hmem _).mpr (.inr ⟨List.ne_nil_of_mem hj, rfl⟩), hj⟩
    · rw [htakes.other p hp] at hj
      exact hold hj
  · intro item hitem
    rw [hnum', hnum, dictSet_of_notMem hsched, List.mem_append, List.mem_singleton] at hitem
    intro j position hj hreached hahead
    rw [hrequest] at hj hreached hahead
    rw [hmm] at hj
    rcases hitem with hitem | rfl
    · have hmem' : item.1 ∈ st.scheduled := List.mem_map_of_mem hitem
      have hne : item.1 ≠ q := fun heq => hsched (heq ▸ hmem')
      rw [hcomputed _ hne] at hreached hahead
      rw [htakes.other _ hne]
      exact h.covered item hitem j position hj hreached hahead
    · rw [hself] at hreached hahead
      rw [htakes.cached, List.mem_append]
      have hn : (st.tryScheduleEncoderInputs cfg q c n₀).2.1 = n := by rw [hencoder]
      have hpos' : 0 < (st.tryScheduleEncoderInputs cfg q c n₀).2.1 := by
        rw [hn]
        exact Int.natCast_pos.mpr hpos
      have hreached' : (position.offset : ℤ) <
          c + (st.tryScheduleEncoderInputs cfg q c n₀).2.1 := by
        rw [hn]
        exact_mod_cast hreached
      have hordered' : (st.request q).Ordered := by
        rw [Request.Ordered, h.mmPositions]
        exact hordered
      have hcovers := tryScheduleEncoderInputs_covers hordered' hpos' hj hreached' hahead
      rw [hencoder] at hcovers
      exact hcovers.symm

/-- What a call finds. -/
structure Encodable (s : Scheduler) : Prop where
  queues_nodup : (s.waiting ++ s.running).Nodup
  requests_nodup : s.requests.Nodup
  requests : ∀ p, p ∈ s.waiting ∨ p ∈ s.running → p ∈ s.requests
  idle : s.scheduledReqIds = []
  ordered : ∀ p, (s.request p).Ordered

theorem Encodable.mem_requests (h : Encodable s) (hsel : Selecting s st) {p : ReqId}
    (hp : p ∈ st.waiting ∨ p ∈ st.running) : p ∈ s.requests :=
  h.requests p (List.mem_append.mp (hsel.perm.mem_iff.mp (List.mem_append.mpr hp)))

theorem Move.encoding (hs : Encodable s) (hsel : Selecting s st) (hmove : Move cfg st st')
    (h : Encoding cfg s st) : Encoding cfg s st' := by
  cases hmove with
  | running hmove =>
      cases hmove with
      | allocFail => exact h.congr rfl rfl rfl rfl (fun _ => rfl) (fun _ _ => rfl)
      | preempt reqId running kv hlast hsched hfree =>
          refine h.congr rfl rfl rfl rfl (fun p => ?_) (fun p hp => ?_)
          · by_cases hp : p = reqId
            · subst hp
              simp [preempted]
            · simp [preempted, Function.update_of_ne hp]
          · have hne : p ≠ reqId := fun heq => hsched (heq ▸ hp)
            simp [preempted, Function.update_of_ne hne]
      | assign reqId n blocks inputs encoderBudget kv hmem hidle hsched hpos hn hencoder =>
          obtain ⟨n₀, hencoder⟩ := hencoder
          have hreq := hs.mem_requests hsel (.inr hmem)
          refine h.assign hs.requests_nodup hreq hsched (hs.ordered reqId) hpos hencoder
            ?_ ?_ ?_ ?_ (fun p => ?_) ?_ (fun p hp => ?_) <;>
            unfold assignSpecTokens <;> dsimp only [assignRunning] <;> split_ifs <;> try rfl
          · by_cases hp : p = reqId
            · subst hp
              simp [Scheduler.setRequest]
            · simp [Scheduler.setRequest, Function.update_of_ne hp]
          · simp [Scheduler.setRequest]
          · simp [Scheduler.setRequest, Function.update_of_ne hp]
  | setLoras => exact h.congr rfl rfl rfl rfl (fun _ => rfl) (fun _ _ => rfl)
  | waiting hmove =>
      cases hmove with
      | markReady reqId hmem =>
          have hsame : ∀ p, (Function.update st.request reqId (ready (st.request reqId)) p).mmPositions
              = (st.request p).mmPositions ∧
              (Function.update st.request reqId (ready (st.request reqId)) p).numComputedTokens =
                (st.request p).numComputedTokens := by
            intro p
            by_cases hp : p = reqId
            · subst hp
              unfold ready
              split_ifs <;> simp
            · simp [Function.update_of_ne hp]
          exact h.congr rfl rfl rfl rfl (fun p => (hsame p).1) (fun p _ => (hsame p).2)
      | searchCache => exact h.congr rfl rfl rfl rfl (fun _ => rfl) (fun _ _ => rfl)
      | refused => exact h.congr rfl rfl rfl rfl (fun _ => rfl) (fun _ _ => rfl)
      | admission reqId xs ys n numComputedTokens computedBlocks blocks inputs encoderBudget kv₀ kv
          hwaiting hnone hstatus hsearch hpos hn hencoder =>
          obtain ⟨n₀, hencoder⟩ := hencoder
          have hmem : reqId ∈ st.waiting := by simp [hwaiting]
          have hreq := hs.mem_requests hsel (.inl hmem)
          have hsched : reqId ∉ st.scheduled := fun hmem' =>
            hsel.waiting_notMem_running hs.queues_nodup hmem (hsel.scheduled_running reqId hmem')
          unfold admitted
          obtain ⟨loras, hlora⟩ := assignLora_eq cfg st (st.request reqId)
          dsimp only
          rw [hlora]
          refine h.assign hs.requests_nodup hreq hsched (hs.ordered reqId) hpos hencoder
            rfl rfl rfl rfl (fun p => ?_) ?_ (fun p hp => ?_)
          · by_cases hp : p = reqId
            · subst hp
              simp
            · simp [Function.update_of_ne hp]
          · simp
          · simp [Function.update_of_ne hp]

theorem Moves.encoding (hs : Encodable s) (hsel : Selecting s st) (hmoves : Moves cfg st st')
    (h : Encoding cfg s st) : Encoding cfg s st' := by
  have hflight : s.scheduledReqIds ⊆ s.running := by simp [hs.idle]
  induction hmoves with
  | refl => exact h
  | tail hmoves hmove ih =>
      exact hmove.encoding hs (Moves.selecting hs.queues_nodup hflight hmoves hsel) ih

/-! ## Inputs that fit together -/

/-- Do the inputs that the loop chooses fit into the free slots one after the other? -/
def encoderInputsFitLoop (cfg : Config) (e : EncoderCacheManager) (reqId : ReqId) (r : Request)
    (numComputedTokens : ℕ) (numNewTokens : ℤ) : List PlaceholderRange → ℕ → ℤ → ℤ → Bool
  | [], _, _, _ => true
  | position :: positions, i, encoderBudget, slots =>
    if (position.offset : ℤ) ≥ numComputedTokens + numNewTokens then true
    else if position.offset + position.length ≤ numComputedTokens ∨ e.hasCache reqId i then
      encoderInputsFitLoop cfg e reqId r numComputedTokens numNewTokens positions (i + 1)
        encoderBudget slots
    else if cfg.disableChunkedMmInput ∧ numComputedTokens < position.offset ∧
        numComputedTokens + numNewTokens < position.offset + position.length then true
    else if ¬ e.canAllocate r i ∨ (position.length : ℤ) > encoderBudget then true
    else
      (position.length : ℤ) ≤ slots ∧
        encoderInputsFitLoop cfg e reqId r numComputedTokens numNewTokens positions (i + 1)
          (encoderBudget - position.length) (slots - position.length)

/-- Do the inputs chosen for a request fit into the encoder cache together? -/
def encoderInputsFit (cfg : Config) (st : Scheduling) (reqId : ReqId) (numComputedTokens : ℕ)
    (numNewTokens : ℤ) : Bool :=
  encoderInputsFitLoop cfg st.encoderCacheManager reqId (st.request reqId) numComputedTokens
    numNewTokens (st.request reqId).mmPositions 0 st.encoderBudget
    st.encoderCacheManager.numFreeSlots

theorem encoderInputsFitLoop_iff {e : EncoderCacheManager} {r : Request} {c i : ℕ} {n : ℤ}
    {positions : List PlaceholderRange} (hpositions : positions = r.mmPositions.drop i)
    (encoderBudget : ℤ) {slots : ℤ} (hslots : 0 ≤ slots) :
    encoderInputsFitLoop cfg e q r c n positions i encoderBudget slots = true ↔
      r.encoderTokens (tryScheduleEncoderInputsLoop cfg e q r c n positions i encoderBudget).1 ≤
        slots := by
  induction positions generalizing i encoderBudget slots with
  | nil => simpa [encoderInputsFitLoop, tryScheduleEncoderInputsLoop] using hslots
  | cons position positions ih =>
      have hdrop : positions = r.mmPositions.drop (i + 1) := by
        rw [← List.tail_drop, ← hpositions, List.tail_cons]
      have htokens : r.getNumEncoderTokens i = position.length := by
        have hget : r.mmPositions[i]? = some position := by
          rw [← List.head?_drop, ← hpositions, List.head?_cons]
        rw [Request.getNumEncoderTokens, hget]
        rfl
      simp only [encoderInputsFitLoop, tryScheduleEncoderInputsLoop]
      split_ifs with hbehind hskip hchunked hfull hbefore
      · simpa using hslots
      · exact ih hdrop encoderBudget hslots
      · simpa using hslots
      · simpa using hslots
      · simpa using hslots
      · have hrest := r.encoderTokens_nonneg (tryScheduleEncoderInputsLoop cfg e q r c n positions
          (i + 1) (encoderBudget - position.length)).1
        rw [decide_eq_true_iff, Request.encoderTokens_cons, htokens]
        constructor
        · rintro ⟨hfits, hmore⟩
          have := (ih hdrop _ (sub_nonneg.mpr hfits)).mp hmore
          omega
        · intro hall
          have hfits : (position.length : ℤ) ≤ slots := by omega
          exact ⟨hfits, (ih hdrop _ (sub_nonneg.mpr hfits)).mpr (by omega)⟩

theorem encoderInputsFit_iff {c : ℕ} {n : ℤ} (hslots : 0 ≤ st.encoderCacheManager.numFreeSlots) :
    st.encoderInputsFit cfg q c n = true ↔
      (st.request q).encoderTokens (st.tryScheduleEncoderInputs cfg q c n).1 ≤
        st.encoderCacheManager.numFreeSlots := by
  rw [encoderInputsFit, encoderInputsFitLoop_iff (List.drop_zero).symm _ hslots,
    tryScheduleEncoderInputs]
  split_ifs with hinputs
  · exact Iff.rfl
  · have hnil : (st.request q).mmPositions = [] := by
      rw [Request.hasEncoderInputs, decide_eq_true_iff, not_not] at hinputs
      exact hinputs
    rw [hnil]
    simp [tryScheduleEncoderInputsLoop]

/-- Do the inputs fit in every round of the loop over the running requests? -/
def runningLoopFits (cfg : Config) : ℕ → ℕ → Scheduling → Bool
  | 0, _, _ => true
  | fuel + 1, reqIndex, st =>
    match st.running[reqIndex]? with
    | none => true
    | some reqId =>
      let r := st.request reqId
      if st.tokenBudget = 0 then true
      else if reqId ∈ st.scheduledReqIds then runningLoopFits cfg fuel (reqIndex + 1) st
      else
        let cappedTokens :=
          capNewTokens cfg ((r.numTokensWithSpec : ℤ) - r.numComputedTokens) st.tokenBudget
        let (inputs, numNewTokens, encoderBudget) :=
          st.tryScheduleEncoderInputs cfg reqId r.numComputedTokens cappedTokens
        if numNewTokens = 0 then runningLoopFits cfg fuel (reqIndex + 1) st
        else
          match allocateWithPreemption cfg reqId numNewTokens.toNat (st.running.length + 1) st with
          | .ok (some blocks, st') =>
            st.encoderInputsFit cfg reqId r.numComputedTokens cappedTokens &&
              runningLoopFits cfg fuel (reqIndex + 1)
                (((st'.assignRunning reqId numNewTokens.toNat blocks).assignSpecTokens reqId
                  numNewTokens.toNat).assignEncoderInputs reqId inputs encoderBudget)
          | _ => true

/-- Do the inputs fit in every round of the loop over the waiting queue? -/
def waitingLoopFits (cfg : Config) : List ReqId → Scheduling → Bool
  | [], _ => true
  | reqId :: waiting, st =>
    let r := st.request reqId
    if st.tokenBudget = 0 then true
    else if st.running.length = cfg.scheduler.maxNumSeqs then true
    else if r.status = .waitingForFsm ∧ ¬ (r.useStructuredOutput ∧ r.grammar) then
      waitingLoopFits cfg waiting st
    else
      let st :=
        if r.status = .waitingForFsm then
          { st with toScheduler := st.setRequest reqId { r with status := .waiting } }
        else st
      if st.exceedsMaxLoras cfg r then waitingLoopFits cfg waiting st
      else
        match st.kvCacheManager.getComputedBlocks cfg.kvCache reqId (st.request reqId) with
        | .error _ => true
        | .ok ((computedBlocks, numComputedTokens), kvCacheManager) =>
          let st := { st with kvCacheManager := kvCacheManager }
          let cappedTokens :=
            capNewTokens cfg ((r.numTokens : ℤ) - numComputedTokens) st.tokenBudget
          let (inputs, numNewTokens, encoderBudget) :=
            st.tryScheduleEncoderInputs cfg reqId numComputedTokens cappedTokens
          if numNewTokens = 0 then true
          else
            match st.kvCacheManager.allocateSlots cfg.kvCache reqId (st.request reqId)
              numNewTokens.toNat computedBlocks 0 with
            | .ok (some newBlocks, kvCacheManager) =>
              match admitRequest cfg { st with kvCacheManager := kvCacheManager } reqId
                numComputedTokens numNewTokens.toNat computedBlocks newBlocks with
              | .ok st' =>
                st.encoderInputsFit cfg reqId numComputedTokens cappedTokens &&
                  waitingLoopFits cfg waiting (st'.assignEncoderInputs reqId inputs encoderBudget)
              | .error _ => true
            | _ => true

theorem allocateWithPreemption_frame {n fuel : ℕ} {result : Option (List BlockId)}
    (h : allocateWithPreemption cfg q n fuel st = .ok (result, st')) :
    st'.encoderCacheManager = st.encoderCacheManager ∧
      ∀ p, (st'.request p).mmPositions = (st.request p).mmPositions := by
  induction fuel generalizing st with
  | zero => cases h
  | succ fuel ih =>
      simp only [allocateWithPreemption, bind_eq_ok, Prod.exists] at h
      obtain ⟨newBlocks, kv, -, h⟩ := h
      cases newBlocks with
      | some blocks =>
          cases h
          exact ⟨rfl, fun _ => rfl⟩
      | none =>
          dsimp only at h
          split at h
          · cases h
          next last hlast =>
            simp only [bind_eq_ok] at h
            obtain ⟨st₁, hpreempt, h⟩ := h
            obtain ⟨kv₁, -, rfl⟩ := preemptLast_eq_ok hpreempt
            have hmm : ∀ p, ((preempted { st with kvCacheManager := kv } st.running.dropLast last
                kv₁).request p).mmPositions = (st.request p).mmPositions := by
              intro p
              by_cases hp : p = last
              · subst hp
                simp [preempted]
              · simp [preempted, Function.update_of_ne hp]
            split_ifs at h with hself
            · cases h
              exact ⟨rfl, hmm⟩
            · obtain ⟨hcache, hrest⟩ := ih h
              exact ⟨hcache, fun p => (hrest p).trans (hmm p)⟩

theorem assignSpecTokens_frame (st : Scheduling) (q : ReqId) (n : ℕ) :
    (st.assignSpecTokens q n).encoderCacheManager = st.encoderCacheManager ∧
      ((st.assignSpecTokens q n).request q).mmPositions = (st.request q).mmPositions := by
  unfold assignSpecTokens
  dsimp only
  split_ifs
  · exact ⟨rfl, by simp [Scheduler.setRequest]⟩
  · exact ⟨rfl, rfl⟩

/-- The free slots of the encoder cache. -/
def encoderSlots (st : Scheduling) : ℤ :=
  st.encoderCacheManager.numFreeSlots

theorem assignEncoderInputs_slots {r : Request} (inputs : List ℕ) (encoderBudget : ℤ)
    (hmm : (st.request q).mmPositions = r.mmPositions) :
    (st.assignEncoderInputs q inputs encoderBudget).encoderSlots =
      st.encoderSlots - r.encoderTokens inputs := by
  rw [encoderSlots, assignEncoderInputs_encoderCacheManager,
    EncoderCacheManager.foldl_allocate_numFreeSlots, Request.encoderTokens_congr hmm, encoderSlots]

/-- The slots are taken, and they do not run out as long as the condition holds. -/
structure Drains (st st' : Scheduling) (fits : Bool) : Prop where
  antitone : st'.encoderSlots ≤ st.encoderSlots
  fits_iff : 0 ≤ st.encoderSlots → (fits = true ↔ 0 ≤ st'.encoderSlots)

theorem Drains.same (h : st'.encoderSlots = st.encoderSlots) : Drains st st' true :=
  ⟨h.le, fun hslots => ⟨fun _ => h ▸ hslots, fun _ => rfl⟩⟩

theorem Drains.congr {st₁ : Scheduling} {fits : Bool} (h : Drains st₁ st' fits)
    (hsame : st₁.encoderSlots = st.encoderSlots) : Drains st st' fits :=
  ⟨hsame ▸ h.antitone, hsame ▸ h.fits_iff⟩

theorem Drains.trans {st₁ : Scheduling} {fits fits' : Bool} (h : Drains st st₁ fits)
    (h' : Drains st₁ st' fits') : Drains st st' (fits && fits') := by
  refine ⟨h'.antitone.trans h.antitone, fun hslots => ?_⟩
  rw [Bool.and_eq_true, h.fits_iff hslots]
  constructor
  · rintro ⟨hfirst, hrest⟩
    exact (h'.fits_iff hfirst).mp hrest
  · intro hall
    have hfirst := hall.trans h'.antitone
    exact ⟨hfirst, (h'.fits_iff hfirst).mpr hall⟩

/-- One request takes the slots of its inputs, and then the rest of the loop runs. -/
theorem Drains.assign {st₁ : Scheduling} {c : ℕ} {n : ℤ} {inputs : List ℕ} {fits : Bool}
    (hchosen : (st.tryScheduleEncoderInputs cfg q c n).1 = inputs)
    (hone : st₁.encoderSlots = st.encoderSlots - (st.request q).encoderTokens inputs)
    (hrest : Drains st₁ st' fits) : Drains st st' (st.encoderInputsFit cfg q c n && fits) := by
  have hnonneg := (st.request q).encoderTokens_nonneg inputs
  have htake : Drains st st₁ (st.encoderInputsFit cfg q c n) := by
    refine ⟨by omega, fun hslots => ?_⟩
    rw [encoderInputsFit_iff hslots, hchosen, ← encoderSlots, ← sub_nonneg, ← hone]
  exact htake.trans hrest

theorem runningLoop_drains {fuel i : ℕ} (h : runningLoop cfg fuel i st = .ok st') :
    Drains st st' (runningLoopFits cfg fuel i st) := by
  induction fuel generalizing i st with
  | zero =>
      cases h
      exact .same rfl
  | succ fuel ih =>
      rw [runningLoop] at h
      rw [runningLoopFits]
      cases hi : st.running[i]? with
      | none =>
          rw [hi] at h
          cases h
          exact .same rfl
      | some reqId =>
          simp only [hi] at h ⊢
          by_cases hbudget : st.tokenBudget = 0
          · rw [if_pos hbudget] at h ⊢
            cases h
            exact .same rfl
          rw [if_neg hbudget] at h ⊢
          by_cases hflight : reqId ∈ st.scheduledReqIds
          · rw [if_pos hflight] at h ⊢
            exact ih h
          rw [if_neg hflight] at h ⊢
          simp only [bind_eq_ok, pyAssert_eq_ok] at h
          obtain ⟨_, hpos, h⟩ := h
          generalize hencoder : st.tryScheduleEncoderInputs cfg reqId _ _ = encoder at h ⊢
          obtain ⟨inputs, n, encoderBudget⟩ := encoder
          dsimp only at h ⊢
          by_cases hzero : n = 0
          · rw [if_pos hzero] at h ⊢
            exact ih h
          rw [if_neg hzero] at h ⊢
          simp only [bind_eq_ok, Prod.exists] at h
          obtain ⟨newBlocks, st₁, halloc, h⟩ := h
          obtain ⟨hcache, hmm⟩ := allocateWithPreemption_frame halloc
          rw [halloc]
          cases newBlocks with
          | none =>
              cases h
              exact .same (by rw [encoderSlots, hcache, encoderSlots])
          | some blocks =>
              refine Drains.assign (congrArg Prod.fst hencoder) ?_ (ih h)
              obtain ⟨hspec, hspecmm⟩ :=
                (st₁.assignRunning reqId n.toNat blocks).assignSpecTokens_frame reqId n.toNat
              rw [assignEncoderInputs_slots inputs encoderBudget (hspecmm.trans (hmm reqId)),
                encoderSlots, hspec, encoderSlots]
              exact congrArg (fun e : EncoderCacheManager =>
                e.numFreeSlots - (st.request reqId).encoderTokens inputs) hcache

theorem admitRequest_frame {c n : ℕ} {computedBlocks newBlocks : List BlockId}
    (h : st.admitRequest cfg q c n computedBlocks newBlocks = .ok st') :
    st'.encoderCacheManager = st.encoderCacheManager ∧
      (st'.request q).mmPositions = (st.request q).mmPositions := by
  cases hs : (st.request q).status <;> simp only [admitRequest, hs] at h <;> cases h
  all_goals
    unfold assignLora
    split
    · exact ⟨rfl, by simp [Scheduler.setRequest]⟩
    · exact ⟨rfl, by simp [Scheduler.setRequest]⟩

theorem waitingLoop_drains {waiting skipped : List ReqId}
    (h : waitingLoop cfg waiting skipped st = .ok st') :
    Drains st st' (waitingLoopFits cfg waiting st) := by
  induction waiting generalizing skipped st with
  | nil =>
      cases h
      exact .same rfl
  | cons reqId waiting ih =>
      rw [waitingLoop] at h
      rw [waitingLoopFits]
      dsimp only at h ⊢
      by_cases hbudget : st.tokenBudget = 0
      · rw [if_pos hbudget] at h ⊢
        cases h
        exact .same rfl
      rw [if_neg hbudget] at h ⊢
      by_cases hroom : st.running.length = cfg.scheduler.maxNumSeqs
      · rw [if_pos hroom] at h ⊢
        cases h
        exact .same rfl
      rw [if_neg hroom] at h ⊢
      by_cases hfsm : (st.request reqId).status = .waitingForFsm ∧
          ¬ ((st.request reqId).useStructuredOutput = true ∧ (st.request reqId).grammar = true)
      · rw [if_pos hfsm] at h ⊢
        exact ih h
      rw [if_neg hfsm] at h ⊢
      rw [ready_setRequest] at h ⊢
      obtain ⟨st₁, hst₁⟩ : ∃ st₁ : Scheduling, st₁ = { st with
          request := Function.update st.request reqId (ready (st.request reqId)) } := ⟨_, rfl⟩
      rw [← hst₁] at h ⊢
      have hslots : st₁.encoderSlots = st.encoderSlots := by rw [hst₁]; rfl
      suffices hdrains : Drains st₁ st' _ from hdrains.congr hslots
      by_cases hloras : st₁.exceedsMaxLoras cfg (st.request reqId) = true
      · rw [if_pos hloras] at h ⊢
        exact ih h
      rw [if_neg hloras] at h ⊢
      simp only [bind_eq_ok, pyAssert_eq_ok, Prod.exists] at h
      obtain ⟨computedBlocks, numComputedTokens, kv₀, hsearch, _, hpos, h⟩ := h
      rw [hsearch]
      dsimp only
      generalize hencoder :
        tryScheduleEncoderInputs cfg { st₁ with kvCacheManager := kv₀ } reqId _ _ = encoder at h ⊢
      obtain ⟨inputs, n, encoderBudget⟩ := encoder
      dsimp only at h ⊢
      by_cases hzero : n = 0
      · rw [if_pos hzero] at h ⊢
        cases h
        exact .same rfl
      rw [if_neg hzero] at h ⊢
      simp only [bind_eq_ok, Prod.exists] at h
      obtain ⟨newBlocks, kv, halloc, h⟩ := h
      rw [halloc]
      cases newBlocks with
      | none =>
          cases h
          exact .same rfl
      | some newBlocks =>
          simp only [bind_eq_ok] at h
          obtain ⟨st₂, hadmitted, h⟩ := h
          dsimp only
          rw [hadmitted]
          obtain ⟨hcache, hmm⟩ := admitRequest_frame hadmitted
          have hchosen : (tryScheduleEncoderInputs cfg { st₁ with kvCacheManager := kv₀ } reqId _
              _).1 = inputs := congrArg Prod.fst hencoder
          have hassign := Drains.assign hchosen
            (by rw [assignEncoderInputs_slots inputs encoderBudget hmm, encoderSlots, hcache]; rfl)
            (ih h)
          exact hassign.congr rfl

end Scheduling

namespace Scheduler

open Scheduling

variable {cfg : Config} {s s' : Scheduler} {out : SchedulerOutput} {st : Scheduling}

/-- Do the encoder inputs that a call of `schedule` chooses together for one request fit into the
encoder cache together? -/
def EncoderFits (cfg : Config) (s : Scheduler) : Bool :=
  runningLoopFits cfg s.running.length 0 (s.startScheduling cfg) &&
    match runningLoop cfg s.running.length 0 (s.startScheduling cfg) >>= recordLoras cfg with
    | .ok st => if st.preemptedReqs = [] then waitingLoopFits cfg st.waiting st else true
    | .error _ => true

/-- The free slots never run out in a call exactly if the inputs fit together. -/
theorem selectRequests_drains (h : (s.startScheduling cfg).selectRequests cfg = .ok st) :
    Drains (s.startScheduling cfg) st (s.EncoderFits cfg) := by
  simp only [selectRequests, bind_eq_ok] at h
  obtain ⟨st₁, hrun, st₂, hloras, hwait⟩ := h
  have hrunning := runningLoop_drains hrun
  have hbind : (runningLoop cfg s.running.length 0 (s.startScheduling cfg) >>= recordLoras cfg) =
      .ok st₂ := bind_eq_ok.mpr ⟨st₁, hrun, hloras⟩
  obtain ⟨loras, rfl⟩ := recordLoras_eq_ok hloras
  have hwaiting : Drains st₁ st (if st₁.preemptedReqs = [] then
      waitingLoopFits cfg st₁.waiting { st₁ with scheduledLoras := loras } else true) := by
    unfold waitingPass at hwait
    split_ifs at hwait ⊢ with hnone
    · exact (waitingLoop_drains hwait).congr rfl
    · cases hwait
      exact .same rfl
  rw [EncoderFits, hbind]
  exact hrunning.trans hwaiting

/-! ## Accounts -/

/-- Every slot is free or holds an encoder output of a live request. -/
structure Accounted (cfg : Config) (s : Scheduler) : Prop where
  nodup : ∀ p, (s.encoderCacheManager.cached p).Nodup
  live : ∀ p ∉ s.requests, s.encoderCacheManager.cached p = []
  slots : s.encoderCacheManager.numFreeSlots +
    s.encoderCacheManager.slotsUsed s.request s.requests = cfg.encoderCacheSize

theorem Accounted.encoding (h : Accounted cfg s) : Encoding cfg s (s.startScheduling cfg) where
  mmPositions := fun _ => rfl
  nodup := h.nodup
  live := h.live
  slots := h.slots
  keys := nofun
  budget := add_zero _
  budget_nonneg := Int.natCast_nonneg _
  origin := fun _ _ => .inr
  covered := nofun

/-- What a call of `schedule` leaves in the encoder cache. -/
theorem ScheduleSpec.encoding (hspec : ScheduleSpec cfg s out s' st) (hs : Encodable s)
    (h : Accounted cfg s) : Selecting s st ∧ Encoding cfg s st := by
  have hsel := startScheduling_selecting cfg (by rw [hs.idle]; exact List.nodup_nil)
  have hflight : s.scheduledReqIds ⊆ s.running := by simp [hs.idle]
  exact ⟨hspec.moves.selecting hs.queues_nodup hflight hsel, hspec.moves.encoding hs hsel h.encoding⟩

theorem ScheduleSpec.accounted (hspec : ScheduleSpec cfg s out s' st) (hs : Encodable s)
    (h : Accounted cfg s) : Accounted cfg s' := by
  obtain ⟨hsel, hencoding⟩ := hspec.encoding hs h
  rw [hspec.scheduler]
  refine ⟨hencoding.nodup, ?_, ?_⟩
  · intro p hp
    change p ∉ st.requests at hp
    rw [hsel.requests] at hp
    exact hencoding.live p hp
  · rw [← hencoding.slots, ← hsel.requests]
    exact congrArg _ (EncoderCacheManager.slotsUsed_congr rfl fun _ _ => rfl)

/-! ### Model outputs -/

variable {output : ModelRunnerOutput} {q : ReqId} {stopped : Bool}
  {outputs : List EngineCoreOutput} {running kept : List ReqId}

/-- Requests may leave, and slots are only freed. -/
structure Frees (s s' : Scheduler) : Prop where
  requests : s'.requests ⊆ s.requests
  mmPositions : ∀ p, (s'.request p).mmPositions = (s.request p).mmPositions
  slots : s.encoderCacheManager.numFreeSlots ≤ s'.encoderCacheManager.numFreeSlots

theorem Frees.refl (s : Scheduler) : Frees s s :=
  ⟨List.Subset.refl _, fun _ => rfl, le_rfl⟩

theorem Frees.trans {s₁ s₂ s₃ : Scheduler} (h : Frees s₁ s₂) (h' : Frees s₂ s₃) : Frees s₁ s₃ :=
  ⟨fun _ hp => h.requests (h'.requests hp), fun p => (h'.mmPositions p).trans (h.mmPositions p),
    h.slots.trans h'.slots⟩

/-- The slots of one request are freed. -/
theorem Accounted.release (h : Accounted cfg s) (hrequests : s.requests.Nodup) (hq : q ∈ s.requests)
    {encoder : EncoderCacheManager} (hencoder : EncoderFreed s q stopped encoder)
    (hcache : s'.encoderCacheManager = encoder)
    (hlive : s'.requests = if stopped then s.requests.erase q else s.requests)
    (hmm : ∀ p, (s'.request p).mmPositions = (s.request p).mmPositions) :
    Accounted cfg s' ∧ Frees s s' := by
  obtain ⟨hreleases, hempty⟩ := hencoder (h.nodup q)
  have hslots : s'.encoderCacheManager.slotsUsed s'.request s'.requests =
      s'.encoderCacheManager.slotsUsed s'.request s.requests := by
    rw [hlive]
    split_ifs with hstopped
    · exact EncoderCacheManager.slotsUsed_erase (by rw [hcache]; exact hempty hstopped)
    · rfl
  refine ⟨⟨fun p => ?_, fun p hp => ?_, ?_⟩, ?_, hmm, hcache ▸ hreleases.grows⟩
  · rw [hcache]
    by_cases heq : p = q
    · subst heq
      exact (h.nodup p).sublist hreleases.sublist
    · rw [hreleases.other p heq]
      exact h.nodup p
  · rw [hcache]
    rw [hlive] at hp
    by_cases heq : p = q
    · subst heq
      split_ifs at hp with hstopped
      · exact hempty hstopped
      · exact absurd hq hp
    · rw [hreleases.other p heq]
      refine h.live p fun hmem => hp ?_
      split_ifs
      exacts [hrequests.mem_erase_iff.mpr ⟨heq, hmem⟩, hmem]
  · rw [hslots, hcache, EncoderCacheManager.add_slotsUsed hrequests hq hreleases.other hmm
      hreleases.total]
    exact h.slots
  · rw [hlive]
    split_ifs
    exacts [List.erase_subset, List.Subset.refl _]

theorem UpdateMove.accounted (hmove : UpdateMove cfg out output s q stopped outputs s')
    (hrequests : s.requests.Nodup) (hq : q ∈ s.requests) (h : Accounted cfg s) :
    Accounted cfg s' ∧ Frees s s' := by
  have hmm : ∀ p, (s'.request p).mmPositions = (s.request p).mmPositions := by
    intro p
    by_cases hp : p = q
    · subst hp
      obtain ⟨_, _, heq⟩ := received_eq out output p (s.request p)
      cases hmove with
      | goesOn r encoder _ _ hr => simp [setRequest, hr, Request.appended, heq]
      | stops r _ _ _ encoder kv _ _ _ _ _ _ _ hr => simp [setRequest, hr, Request.appended, heq]
    · rw [(hmove.request_of_ne hp).1]
  cases hmove with
  | goesOn r encoder hflight hencoder hr => exact h.release hrequests hq hencoder rfl rfl hmm
  | stops r tokenIds status stopReason encoder kv _ _ _ _ _ _ hencoder =>
      exact h.release hrequests hq hencoder rfl rfl hmm

theorem UpdateMoves.accounted (hmoves : UpdateMoves cfg out output s running kept outputs s')
    (hnodup : running.Nodup) (hrequests : s.requests.Nodup) (hlive : ∀ p ∈ running, p ∈ s.requests)
    (h : Accounted cfg s) : Accounted cfg s' ∧ Frees s s' := by
  induction hmoves with
  | nil => exact ⟨h, .refl _⟩
  | skip hskip hrest ih =>
      exact ih (List.nodup_cons.mp hnodup).2 hrequests
        (fun p hp => hlive p (List.mem_cons_of_mem _ hp)) h
  | @update s s₁ s' reqId running kept outputs outputs' stopped hbatch hmove hrest ih =>
      obtain ⟨hnotMem, hnodup⟩ := List.nodup_cons.mp hnodup
      obtain ⟨-, -, -, hreq⟩ := hmove.frame
      obtain ⟨h₁, hfrees₁⟩ := hmove.accounted hrequests (hlive reqId List.mem_cons_self) h
      obtain ⟨h₂, hfrees₂⟩ := ih hnodup
        (by rw [hreq]; split_ifs; exacts [hrequests.erase reqId, hrequests])
        (fun p hp => ((hmove.mem_of_ne fun heq => hnotMem (heq ▸ hp)).2).mpr
          (hlive p (List.mem_cons_of_mem _ hp))) h₁
      exact ⟨h₂, hfrees₁.trans hfrees₂⟩

theorem updateFromOutput_accounted
    (h : s.updateFromOutput cfg out output = .ok (outputs, s')) (hnodup : s.running.Nodup)
    (hrequests : s.requests.Nodup) (hlive : ∀ p ∈ s.running, p ∈ s.requests)
    (hacc : Accounted cfg s) : Accounted cfg s' ∧ Frees s s' := by
  obtain ⟨kept, s₁, hmoves, rfl⟩ := updateFromOutput_moves h
  obtain ⟨⟨hcached, hold, hslots⟩, hfrees⟩ := hmoves.accounted hnodup hrequests hlive hacc
  exact ⟨⟨hcached, hold, hslots⟩, hfrees.requests, hfrees.mmPositions, hfrees.slots⟩

/-! ### Steps -/

/-- The encoder cache between two steps. -/
structure Encoded (cfg : Config) (s : Scheduler) : Prop where
  encodable : Encodable s
  accounted : Accounted cfg s

/-- A step schedules a batch and applies its output. -/
theorem Encoded.step (h : Encoded cfg s) (hspec : ScheduleSpec cfg s out s' st)
    {s₂ : Scheduler} (hupdate : s'.updateFromOutput cfg out output = .ok (outputs, s₂)) :
    Encoded cfg s₂ ∧ s₂.requests ⊆ s.requests ∧ Frees s' s₂ := by
  obtain ⟨hs, hacc⟩ := h
  obtain ⟨hsel, hencoding⟩ := hspec.encoding hs hacc
  have hacc' := hspec.accounted hs hacc
  have hnodup : (s'.waiting ++ s'.running).Nodup := by
    rw [hspec.scheduler]
    exact hsel.nodup hs.queues_nodup
  have hrequests : s'.requests = s.requests := by
    rw [hspec.scheduler]
    exact hsel.requests
  have hlive : ∀ p, p ∈ s'.waiting ∨ p ∈ s'.running → p ∈ s'.requests := by
    rw [hrequests, hspec.scheduler]
    exact fun p hp => hs.mem_requests hsel hp
  have hmm' : ∀ p, (s'.request p).mmPositions = (s.request p).mmPositions := by
    rw [hspec.scheduler]
    exact hencoding.mmPositions
  have hrun := (List.nodup_append.mp hnodup).2.1
  have hreqNodup : s'.requests.Nodup := hrequests ▸ hs.requests_nodup
  obtain ⟨hacc₂, hfrees⟩ := updateFromOutput_accounted hupdate hrun hreqNodup
    (fun p hp => hlive p (.inr hp)) hacc'
  obtain ⟨kept, s₁, hmoves, rfl⟩ := updateFromOutput_moves hupdate
  have hflight : s'.scheduledReqIds.Nodup := by
    rw [hspec.scheduler]
    exact hsel.scheduledReqIds_nodup
  have hup := hmoves.updated hrun hflight hreqNodup
  refine ⟨⟨⟨?_, hup.requests_nodup, fun p hp => ?_, ?_, fun p => ?_⟩, hacc₂⟩,
    hrequests ▸ hfrees.requests, hfrees⟩
  · change (s₁.waiting ++ kept).Nodup
    rw [hup.waiting]
    exact hnodup.sublist (List.Sublist.append (List.Sublist.refl _) hup.sublist)
  · change p ∈ s₁.waiting ∨ p ∈ kept at hp
    rw [hup.waiting] at hp
    refine (hup.requests p).mpr ⟨hlive p (hp.imp id fun hk => hup.sublist.subset hk), ?_⟩
    rintro ⟨hin, hout⟩
    rcases hp with hp | hp
    · exact (List.nodup_append.mp hnodup).2.2 p hp p hin rfl
    · exact hout hp
  · refine List.eq_nil_iff_forall_not_mem.mpr fun p hp => ?_
    obtain ⟨hp, hnot⟩ := (hup.scheduled p).mp hp
    have hsched : p ∈ st.scheduled := by
      rw [hspec.scheduler] at hp
      have hor := (hsel.scheduledReqIds p).mp hp
      rw [hs.idle] at hor
      exact hor.resolve_left List.not_mem_nil
    refine hnot ⟨?_, System.numScheduled_pos hspec hsel hsched⟩
    rw [hspec.scheduler]
    exact hsel.scheduled_running p hsched
  · rw [Request.Ordered, hfrees.mmPositions, hmm']
    exact hs.ordered p

/-- A request leaves the scheduler. -/
theorem Encoded.finishRequest (h : Encoded cfg s) {finishedStatus : RequestStatus} {q : ReqId}
    (hfinish : s.finishRequest cfg finishedStatus q = .ok s') : Encoded cfg s' ∧ Frees s s' := by
  obtain ⟨hs, hacc⟩ := h
  obtain rfl | ⟨hknown, s₁, kv, hdequeued, -, rfl⟩ := finishRequest_eq_ok hfinish
  · exact ⟨⟨hs, hacc⟩, .refl _⟩
  have hmm : ∀ p, ((s₁.setRequest q { s.request q with status := finishedStatus }).request
      p).mmPositions = (s.request p).mmPositions := by
    intro p
    by_cases hp : p = q
    · subst hp
      simp [setRequest]
    · cases hdequeued <;> simp [setRequest, Function.update_of_ne hp]
  have hfree : ∀ r : Request, r.mmPositions = (s.request q).mmPositions →
      EncoderFreed s q true (s.encoderCacheManager.free q r) := by
    intro r hr hcached
    obtain ⟨hreleases, hempty⟩ := EncoderCacheManager.free_releases r hcached
    exact ⟨hreleases.congr hr.symm, fun _ => hempty⟩
  obtain ⟨hwaiting, hrunning, hdisjoint⟩ := List.nodup_append.mp hs.queues_nodup
  have hqueues : s₁.waiting = s.waiting.erase q ∧ s₁.running = s.running.erase q ∧
      s₁.requests = s.requests ∧ s₁.scheduledReqIds = [] := by
    cases hdequeued with
    | running hmem =>
        have hnotMem : q ∉ s.waiting := fun hq => hdisjoint q hq q hmem rfl
        exact ⟨(List.erase_of_not_mem hnotMem).symm, rfl, rfl, by simp [hs.idle]⟩
    | waiting hmem =>
        have hnotMem : q ∉ s.running := fun hq => hdisjoint q hmem q hq rfl
        exact ⟨rfl, (List.erase_of_not_mem hnotMem).symm, rfl, hs.idle⟩
  obtain ⟨hw, hr, hreq, hidle⟩ := hqueues
  have haccounts : Accounted cfg ((s₁.setRequest q { s.request q with
      status := finishedStatus }).freed q kv) ∧ Frees s ((s₁.setRequest q { s.request q with
        status := finishedStatus }).freed q kv) := by
    cases hdequeued <;>
      exact hacc.release hs.requests_nodup hknown (hfree _ (hmm q)) rfl rfl hmm
  refine ⟨⟨⟨?_, ?_, fun p hp => ?_, hidle, fun p => ?_⟩, haccounts.1⟩, haccounts.2⟩
  · change (s₁.waiting ++ s₁.running).Nodup
    rw [hw, hr]
    exact hs.queues_nodup.sublist (List.Sublist.append List.erase_sublist List.erase_sublist)
  · change (s₁.requests.erase q).Nodup
    rw [hreq]
    exact hs.requests_nodup.erase q
  · change p ∈ s₁.waiting ∨ p ∈ s₁.running at hp
    change p ∈ s₁.requests.erase q
    rw [hw, hr, hwaiting.mem_erase_iff, hrunning.mem_erase_iff, ← and_or_left] at hp
    rw [hreq]
    exact hs.requests_nodup.mem_erase_iff.mpr ⟨hp.1, hs.requests p hp.2⟩
  · exact (congrArg (List.Pairwise _) (hmm p)).mpr (hs.ordered p)

theorem Encoded.finishRequests (h : Encoded cfg s) {finishedStatus : RequestStatus}
    {reqIds : List ReqId} (hfinish : s.finishRequests cfg finishedStatus reqIds = .ok s') :
    Encoded cfg s' ∧ Frees s s' := by
  induction reqIds generalizing s with
  | nil =>
      cases hfinish
      exact ⟨h, .refl _⟩
  | cons reqId reqIds ih =>
      simp only [Scheduler.finishRequests, bind_eq_ok] at hfinish
      obtain ⟨_, -, s₁, hfirst, hrest⟩ := hfinish
      obtain ⟨h₁, hfrees₁⟩ := h.finishRequest hfirst
      obtain ⟨h₂, hfrees₂⟩ := ih h₁ hrest
      exact ⟨h₂, hfrees₁.trans hfrees₂⟩

/-- A request with a new id arrives. -/
theorem Encoded.addRequest (h : Encoded cfg s) {q : ReqId} {r : Request} (hfresh : q ∉ s.requests)
    (hordered : r.Ordered) : Encoded cfg (s.addRequest q r) := by
  obtain ⟨hs, hacc⟩ := h
  have hsame : ∀ p ≠ q, (s.addRequest q r).request p = s.request p :=
    fun p hp => Function.update_of_ne hp _ _
  have hself : (s.addRequest q r).request q = r := Function.update_self _ _ _
  have hreq : (s.addRequest q r).requests = s.requests ++ [q] := if_neg hfresh
  have hqueues : q ∉ s.waiting ++ s.running := fun hq =>
    hfresh (hs.requests q (List.mem_append.mp hq))
  refine ⟨⟨?_, nodup_setAdd hs.requests_nodup, fun p hp => ?_, hs.idle, fun p => ?_⟩,
    ⟨hacc.nodup, fun p hp => hacc.live p fun hmem => hp (mem_setAdd.mpr (.inl hmem)), ?_⟩⟩
  · change (s.waiting ++ [q] ++ s.running).Nodup
    rw [List.append_assoc]
    exact List.perm_middle.nodup_iff.mpr (List.nodup_cons.mpr ⟨hqueues, hs.queues_nodup⟩)
  · refine mem_setAdd.mpr ?_
    rcases hp with hp | hp
    · rcases List.mem_append.mp hp with hp | hp
      · exact .inl (hs.requests p (.inl hp))
      · exact .inr (List.mem_singleton.mp hp)
    · exact .inl (hs.requests p (.inr hp))
  · by_cases hp : p = q
    · subst hp
      rw [hself]
      exact hordered
    · rw [hsame p hp]
      exact hs.ordered p
  · have hempty : s.encoderCacheManager.cached q = [] := hacc.live q hfresh
    have hold : s.encoderCacheManager.slotsUsed (s.addRequest q r).request s.requests =
        s.encoderCacheManager.slotsUsed s.request s.requests :=
      EncoderCacheManager.slotsUsed_congr rfl fun p hp =>
        congrArg _ (hsame p fun heq => hfresh (heq ▸ hp))
    rw [hreq, ← hacc.slots, ← hold]
    simp [EncoderCacheManager.slotsUsed, Scheduler.addRequest, setRequest, hempty]

end Scheduler

/-- The placeholders of a new request come one after the other. -/
def Operation.Ordered : Operation → Prop
  | .addRequest _ arrival => arrival.request.Ordered
  | _ => True

/-- What holds of the encoder cache at every moment. -/
structure Scheduler.EncoderCacheSpec (cfg : Config) (s : Scheduler) : Prop where
  live : ∀ q ∉ s.requests, s.encoderCacheManager.cached q = []
  slots : s.encoderCacheManager.numFreeSlots =
    cfg.encoderCacheSize - s.encoderCacheManager.slotsUsed s.request s.requests
  nonneg : 0 ≤ s.encoderCacheManager.numFreeSlots

/-- What holds of the encoder inputs in one scheduler output. -/
structure Scheduler.EncoderInputsSpec (cfg : Config) (s : Scheduler) (out : SchedulerOutput)
    (s' : Scheduler) : Prop where
  budget : (out.scheduledEncoderInputs.map fun item =>
    (s'.request item.1).encoderTokens item.2).sum ≤ cfg.maxNumEncoderInputTokens
  /-- A placeholder that overlaps the scheduled token range is in the output or cached. -/
  covered : ∀ q n, (q, n) ∈ out.numScheduledTokens → ∃ numComputedTokens,
    (s'.request q).numComputedTokens = numComputedTokens + n ∧
      ∀ j position, (s'.request q).mmPositions[j]? = some position →
        position.offset < numComputedTokens + n →
        numComputedTokens < position.offset + position.length →
          (∃ inputs, (q, inputs) ∈ out.scheduledEncoderInputs ∧ j ∈ inputs) ∨
            j ∈ s.encoderCacheManager.cached q

namespace Scheduler

variable {cfg : Config} {s s' : Scheduler} {out : SchedulerOutput} {st : Scheduling}

theorem Accounted.encoderCacheSpec (h : Accounted cfg s)
    (hnonneg : 0 ≤ s.encoderCacheManager.numFreeSlots) : EncoderCacheSpec cfg s :=
  ⟨h.live, eq_sub_of_add_eq h.slots, hnonneg⟩

theorem ScheduleSpec.encoderInputsSpec (hspec : ScheduleSpec cfg s out s' st)
    (h : Encoded cfg s) : EncoderInputsSpec cfg s out s' := by
  obtain ⟨hsel, hencoding⟩ := hspec.encoding h.encodable h.accounted
  have hmm : ∀ p, (s'.request p).mmPositions = (st.request p).mmPositions := by
    rw [hspec.scheduler]
    exact fun _ => rfl
  have hbudget := hencoding.budget
  have hleft := hencoding.budget_nonneg
  refine ⟨?_, fun q n hitem => ?_⟩
  · rw [hspec.scheduledEncoderInputs]
    simp only [Request.encoderTokens_congr (hmm _)]
    rw [Scheduling.scheduledEncoderTokens] at hbudget
    omega
  · rw [hspec.numScheduledTokens] at hitem
    have hget : dictGet? st.numScheduledTokens q = some n :=
      (dictGet?_eq_some hsel.scheduled_nodup).mpr hitem
    refine ⟨(st.request q).numComputedTokens, ?_, fun j position hj hreached hahead => ?_⟩
    · rw [hspec.scheduler]
      simp [Scheduling.advanceComputed, hget]
    · rw [hmm] at hj
      rw [hspec.scheduledEncoderInputs]
      exact hencoding.origin q j (hencoding.covered _ hitem j position hj hreached hahead)

/-- The free slots after a call. -/
theorem ScheduleSpec.slots_nonneg_iff (hspec : ScheduleSpec cfg s out s' st)
    (hnonneg : 0 ≤ s.encoderCacheManager.numFreeSlots) :
    0 ≤ s'.encoderCacheManager.numFreeSlots ↔ s.EncoderFits cfg = true := by
  have hsame : s'.encoderCacheManager.numFreeSlots = st.encoderCacheManager.numFreeSlots := by
    rw [hspec.scheduler]
    rfl
  rw [hsame]
  exact ((selectRequests_drains hspec.select).fits_iff hnonneg).symm

end Scheduler

namespace System

open Scheduler

variable {cfg : Config} {sys sys' : System} {operation : Operation}

/-- The invariant of the engine that waits for every batch. -/
structure Encoded (cfg : Config) (sys : System) : Prop where
  scheduler : Scheduler.Encoded cfg sys.engine.scheduler
  known : ∀ q ∈ sys.engine.scheduler.requests, q ∈ sys.added

/-- The operation calls `schedule`, which returns this. -/
def Schedules (cfg : Config) (sys : System) : Operation → SchedulerOutput → Scheduler → Prop
  | .step _, out, s' =>
    sys.engine.scheduler.hasRequests ∧ sys.engine.scheduler.schedule cfg = .ok (out, s')
  | _, _, _ => False

/-- The condition on one operation: the encoder inputs that it chooses together for one request fit
into the encoder cache together. -/
def EncoderFits (cfg : Config) (sys : System) : Operation → Prop
  | .step _ => sys.engine.scheduler.hasRequests → sys.engine.scheduler.EncoderFits cfg = true
  | _ => True

/-- The free slots of the encoder cache. -/
def encoderSlots (sys : System) : ℤ :=
  sys.engine.scheduler.encoderCacheManager.numFreeSlots

/-- What an operation does to the free slots: only `schedule` takes some. -/
inductive TakesSlots (cfg : Config) (sys : System) (operation : Operation) (sys' : System) :
    Prop where
  | schedules (out : SchedulerOutput) (s : Scheduler) (st : Scheduling)
      (hschedules : sys.Schedules cfg operation out s)
      (hspec : ScheduleSpec cfg sys.engine.scheduler out s st)
      (hslots : s.encoderCacheManager.numFreeSlots ≤ sys'.encoderSlots)
  | frees (hfits : sys.EncoderFits cfg operation)
      (hslots : sys.encoderSlots ≤ sys'.encoderSlots)

theorem Encoded.step (hsize : ¬ 1 < cfg.batchQueueSize) (h : sys.Encoded cfg)
    (hstep : Step cfg sys operation sys') (hordered : operation.Ordered) :
    sys'.Encoded cfg ∧ sys.TakesSlots cfg operation sys' := by
  obtain ⟨haccepts, happly⟩ := hstep
  cases operation with
  | addRequest reqId arrival =>
      cases happly
      have hfresh : reqId ∉ sys.engine.scheduler.requests := fun hmem =>
        haccepts (h.known reqId hmem)
      refine ⟨⟨h.scheduler.addRequest hfresh hordered, fun q hq => ?_⟩,
        .frees trivial le_rfl⟩
      rcases mem_setAdd.mp hq with hq | rfl
      · exact List.mem_cons_of_mem _ (h.known q hq)
      · exact List.mem_cons_self
  | compileGrammar reqId =>
      cases happly
      have hmm : ∀ p, ((sys.engine.compileGrammar reqId).scheduler.request p).mmPositions =
          (sys.engine.scheduler.request p).mmPositions := by
        intro p
        by_cases hp : p = reqId
        · subst hp
          simp [EngineCore.compileGrammar, setRequest]
        · simp [EngineCore.compileGrammar, setRequest, Function.update_of_ne hp]
      obtain ⟨⟨hs, hacc⟩, hknown⟩ := h
      refine ⟨⟨⟨⟨hs.queues_nodup, hs.requests_nodup, hs.requests, hs.idle, fun p => ?_⟩,
        ⟨hacc.nodup, hacc.live, ?_⟩⟩, hknown⟩, .frees trivial le_rfl⟩
      · rw [Request.Ordered, hmm]
        exact hs.ordered p
      · rw [← hacc.slots]
        exact congrArg _ (EncoderCacheManager.slotsUsed_congr rfl fun p _ => hmm p)
  | finishRequests finishedStatus reqIds =>
      simp only [System.apply, bind_eq_ok, pure_eq_ok] at happly
      obtain ⟨s, hfinish, rfl⟩ := happly
      obtain ⟨hs, hfrees⟩ := h.scheduler.finishRequests hfinish
      exact ⟨⟨hs, fun q hq => h.known q (hfrees.requests hq)⟩, .frees trivial hfrees.slots⟩
  | resetPrefixCache =>
      cases happly
      obtain ⟨⟨hs, hacc⟩, hknown⟩ := h
      exact ⟨⟨⟨⟨hs.queues_nodup, hs.requests_nodup, hs.requests, hs.idle, hs.ordered⟩,
        ⟨hacc.nodup, hacc.live, hacc.slots⟩⟩, hknown⟩, .frees trivial le_rfl⟩
  | step execute =>
      simp only [System.apply, EngineCore.stepFn, if_neg hsize, bind_eq_ok, pure_eq_ok,
        Prod.exists] at happly
      obtain ⟨outputs, e, hstep, rfl⟩ := happly
      unfold EngineCore.step at hstep
      split_ifs at hstep with hrequests
      · simp only [bind_eq_ok, pure_eq_ok, Prod.exists, Prod.mk.injEq] at hstep
        obtain ⟨out, s, hschedule, _, s₂, hupdate, -, rfl⟩ := hstep
        obtain ⟨st, hspec⟩ := schedule_spec
          (List.nodup_append.mp h.scheduler.encodable.queues_nodup).2.1 hschedule
        obtain ⟨hs₂, hsub, hfrees⟩ := h.scheduler.step hspec hupdate
        exact ⟨⟨hs₂, fun q hq => h.known q (hsub hq)⟩,
          .schedules out s st ⟨hrequests, hschedule⟩ hspec hfrees.slots⟩
      · cases hstep
        exact ⟨⟨h.scheduler, h.known⟩, .frees (fun hreq => absurd hreq hrequests) le_rfl⟩

theorem init_encoded (h : init cfg = .ok sys) : sys.Encoded cfg ∧ 0 ≤ sys.encoderSlots := by
  simp only [init, EngineCore.init, Scheduler.init, bind_eq_ok, pure_eq_ok] at h
  obtain ⟨e, ⟨s, ⟨kv, -, rfl⟩, rfl⟩, rfl⟩ := h
  refine ⟨⟨⟨⟨List.nodup_nil, List.nodup_nil, fun p hp => ?_, rfl, fun p => ?_⟩,
    ⟨fun p => List.nodup_nil, fun p _ => rfl, ?_⟩⟩, (fun p hp => by cases hp)⟩, Int.natCast_nonneg _⟩
  · simp at hp
  · exact List.Pairwise.nil
  · simp [EncoderCacheManager.slotsUsed, EncoderCacheManager.init]

theorem Encoded.scheduleSpec (h : sys.Encoded cfg) {out : SchedulerOutput} {s : Scheduler}
    (hschedules : sys.Schedules cfg operation out s) :
    (∃ st, ScheduleSpec cfg sys.engine.scheduler out s st) ∧
      (sys.EncoderFits cfg operation ↔ sys.engine.scheduler.EncoderFits cfg = true) := by
  cases operation with
  | step execute =>
      exact ⟨schedule_spec (List.nodup_append.mp h.scheduler.encodable.queues_nodup).2.1
        hschedules.2, ⟨fun hfits => hfits hschedules.1, fun hfits _ => hfits⟩⟩
  | _ => exact hschedules.elim

/-- The encoder cache is never overdrawn exactly as long as the inputs that are chosen together fit
together; its account is right and the encoder budget is kept in any case. -/
theorem timeline_encoderSpec_iff (hsize : ¬ 1 < cfg.batchQueueSize)
    (timeline : Timeline (Step cfg)) (hinit : init cfg = .ok (timeline.state 0))
    (hordered : ∀ k < timeline.length, (timeline.label k).Ordered) :
    ((∀ k ≤ timeline.length, EncoderCacheSpec cfg (timeline.state k).engine.scheduler) ∧
      ∀ k < timeline.length, ∀ out s, (timeline.state k).Schedules cfg (timeline.label k) out s →
        EncoderCacheSpec cfg s ∧
          EncoderInputsSpec cfg (timeline.state k).engine.scheduler out s) ↔
      ∀ k < timeline.length, (timeline.state k).EncoderFits cfg (timeline.label k) := by
  have hencoded : ∀ k ≤ timeline.length, (timeline.state k).Encoded cfg := by
    intro k
    induction k with
    | zero => exact fun _ => (init_encoded hinit).1
    | succ k ih =>
        exact fun hk => ((ih (by omega)).step hsize (timeline.step k hk) (hordered k hk)).1
  constructor
  · rintro ⟨hstates, hcalls⟩ k hk
    have h := hencoded k (by omega)
    obtain ⟨-, htakes⟩ := h.step hsize (timeline.step k hk) (hordered k hk)
    cases htakes with
    | schedules out s st hschedules hspec =>
        rw [(h.scheduleSpec hschedules).2, ← hspec.slots_nonneg_iff (hstates k (by omega)).nonneg]
        exact (hcalls k hk out s hschedules).1.nonneg
    | frees hfits => exact hfits
  · intro hfits
    have hslots : ∀ k ≤ timeline.length, 0 ≤ (timeline.state k).encoderSlots := by
      intro k
      induction k with
      | zero => exact fun _ => (init_encoded hinit).2
      | succ k ih =>
          intro hk
          have hnonneg := ih (by omega)
          have h := hencoded k (by omega)
          obtain ⟨-, htakes⟩ := h.step hsize (timeline.step k hk) (hordered k hk)
          cases htakes with
          | schedules out s st hschedules hspec hle =>
              have hfit := (h.scheduleSpec hschedules).2.mp (hfits k hk)
              exact ((hspec.slots_nonneg_iff hnonneg).mpr hfit).trans hle
          | frees _ hle => exact hnonneg.trans hle
    refine ⟨fun k hk => (hencoded k hk).scheduler.accounted.encoderCacheSpec (hslots k hk),
      fun k hk out s hschedules => ?_⟩
    have h := hencoded k (by omega)
    obtain ⟨⟨st, hspec⟩, hfit⟩ := h.scheduleSpec hschedules
    have hnonneg := (hspec.slots_nonneg_iff (hslots k (by omega))).mpr (hfit.mp (hfits k hk))
    exact ⟨(hspec.accounted h.scheduler.encodable h.scheduler.accounted).encoderCacheSpec hnonneg,
      hspec.encoderInputsSpec h.scheduler⟩

/-! ## Two pictures at once -/

/-- An operation that does not raise. -/
def next (cfg : Config) (sys : System) (operation : Operation) : Option System :=
  if sys.Accepts operation then (sys.apply cfg operation).toOption else none

theorem next_step (h : sys.next cfg operation = some sys') : Step cfg sys operation sys' := by
  unfold next at h
  split_ifs at h with haccepts
  refine ⟨haccepts, ?_⟩
  cases happly : sys.apply cfg operation with
  | error e => simp [happly, Except.toOption] at h
  | ok sys₁ =>
      rw [happly] at h
      exact congrArg Except.ok (Option.some.inj h)

/-- An encoder cache of eight slots. -/
def eightSlots : Config where
  scheduler := { maxNumSeqs := 2, maxNumBatchedTokens := 8, longPrefillTokenThreshold := 0 }
  kvCache := {
    blockSize := 16
    numBlocks := 4
    maxModelLen := 16
    numPreallocateTokens := 0
    enableCaching := false
    cachingHashFn := fun _ _ _ => 1
    noneHash := 0 }
  batchQueueSize := 1
  maxNumEncoderInputTokens := 8
  encoderCacheSize := 8

/-- Request 0 has computed half of a picture of six slots when request 1 arrives. -/
def halfPicture (mmPositions : List PlaceholderRange) : List Operation :=
  [.addRequest 0 ⟨List.replicate 10 1, { maxTokens := 2 }, none, none, [⟨4, 6⟩], ["a"]⟩,
    .step (greedyExecutor fun _ => 3),
    .addRequest 1 ⟨List.replicate 5 1, { maxTokens := 2 }, none, none, mmPositions, []⟩,
    .step (greedyExecutor fun _ => 3)]

theorem eightSlots_isSome : (init eightSlots).toOption.isSome := by decide +kernel

def eightSlotsStart : System :=
  (init eightSlots).toOption.get eightSlots_isSome

theorem init_eightSlots : init eightSlots = .ok eightSlotsStart := by
  have hget : (init eightSlots).toOption = some eightSlotsStart :=
    (Option.some_get eightSlots_isSome).symm
  cases h : init eightSlots with
  | error e => simp [h, Except.toOption] at hget
  | ok sys =>
      rw [h] at hget
      exact congrArg Except.ok (Option.some.inj hget)

/-- One picture that fits beside the first one. -/
theorem halfPicture_one : ((halfPicture [⟨0, 2⟩]).foldlM (next eightSlots)
    eightSlotsStart).isSome := by decide +kernel

def onePicture : Timeline (Step eightSlots) :=
  .ofLabels (next eightSlots) (fun _ _ _ => next_step) eightSlotsStart .resetPrefixCache
    (halfPicture [⟨0, 2⟩]) halfPicture_one

/-- Two pictures, each of which fits beside the first one. -/
theorem halfPicture_two : ((halfPicture [⟨0, 2⟩, ⟨2, 2⟩]).foldlM (next eightSlots)
    eightSlotsStart).isSome := by decide +kernel

def twoPictures : Timeline (Step eightSlots) :=
  .ofLabels (next eightSlots) (fun _ _ _ => next_step) eightSlotsStart .resetPrefixCache
    (halfPicture [⟨0, 2⟩, ⟨2, 2⟩]) halfPicture_two

theorem halfPicture_ordered {mmPositions : List PlaceholderRange}
    (h : mmPositions.Pairwise fun position position' =>
      position.offset + position.length ≤ position'.offset) :
    ∀ k < 4, ((halfPicture mmPositions).getD k .resetPrefixCache).Ordered := by
  intro k hk
  match k, hk with
  | 0, _ => exact List.pairwise_singleton _ _
  | 1, _ => trivial
  | 2, _ => exact h
  | 3, _ => trivial

theorem timeline_encoderSpec_iff_onePicture :
    (∀ k ≤ onePicture.length, EncoderCacheSpec eightSlots (onePicture.state k).engine.scheduler) ∧
      ∀ k < onePicture.length, ∀ out s,
        (onePicture.state k).Schedules eightSlots (onePicture.label k) out s →
          EncoderCacheSpec eightSlots s ∧
            EncoderInputsSpec eightSlots (onePicture.state k).engine.scheduler out s := by
  refine (timeline_encoderSpec_iff (by decide) onePicture init_eightSlots
    (halfPicture_ordered (List.pairwise_singleton _ _))).mpr ?_
  intro k hk
  match k, hk with
  | 0, _ => trivial
  | 1, _ => exact fun _ => by decide +kernel
  | 2, _ => trivial
  | 3, _ => exact fun _ => by decide +kernel

/-- Both pictures are allocated into the two slots that are left. -/
theorem twoPictures_overdrawn : init eightSlots = .ok (twoPictures.state 0) ∧
    (∀ k < twoPictures.length, (twoPictures.label k).Ordered) ∧
    ∃ out s, (twoPictures.state 3).Schedules eightSlots (twoPictures.label 3) out s ∧
      s.encoderCacheManager.numFreeSlots = -2 ∧ ¬ EncoderCacheSpec eightSlots s := by
  have hslots : ((twoPictures.state 3).engine.scheduler.schedule eightSlots).toOption.map
      (fun result => result.2.encoderCacheManager.numFreeSlots) = some (-2) := by decide +kernel
  obtain ⟨⟨out, s⟩, hschedule, hslots⟩ := Option.map_eq_some_iff.mp hslots
  refine ⟨init_eightSlots, halfPicture_ordered (by decide), out, s,
    ⟨by decide +kernel, ?_⟩, hslots, fun hspec => ?_⟩
  · cases h : (twoPictures.state 3).engine.scheduler.schedule eightSlots with
    | error e => simp [h, Except.toOption] at hschedule
    | ok result =>
        rw [h] at hschedule
        exact congrArg Except.ok (Option.some.inj hschedule)
  · have hnonneg := hspec.nonneg
    dsimp only at hslots
    omega

end System

end Spexis.V1
