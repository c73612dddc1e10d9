import InferenceGate.Messaging.Broker
import Mathlib.Data.List.DropRight
import Mathlib.Data.List.Induction
import Mathlib.Data.List.Nodup

/-!
# Subscriptions

A broker is what its history makes of it. Whoever has subscribed to a channel and not left is there and never cut off, and has waiting
the newest payloads published on that channel since it last took what was waiting, in their order, up to its capacity; and right after
someone subscribes, the channels with a line are those that have a subscriber (`subscriptions_follow_history`). Lines are opened and
forgotten as subscribers come and go; what carries this is that everyone on a channel is on its one line (`Sound`).
-/

namespace InferenceGate.Messaging

/-- What is asked of a broker. -/
inductive Request where
  | subscribe (channel : String)
  | leave (id : Nat)
  | publish (channel payload : String)
  | drain (id : Nat)
  deriving DecidableEq

/-- The broker after one request. -/
def Broker.take (b : Broker) : Request → Broker
  | .subscribe channel => (b.subscribe channel).2
  | .leave id => b.leave id
  | .publish channel payload => b.publish channel payload
  | .drain id => (b.drain id).2

/-- A new broker after a run of requests. -/
def Broker.after (run : List Request) : Broker := run.foldl Broker.take {}

/-- Someone subscribes. -/
def Request.isSubscribe : Request → Bool
  | .subscribe _ => true
  | _ => false

/-- The payload that a request publishes on a channel. -/
def Request.published? (channel : String) : Request → Option String
  | .publish c payload => if c = channel then some payload else none
  | _ => none

/-- A run subscribed a number to a channel, the number being that of the subscribers before it, and these requests came since. -/
def Subscribed (run : List Request) (id : Nat) (channel : String) (since : List Request) : Prop :=
  ∃ before, run = before ++ .subscribe channel :: since ∧ id = before.countP Request.isSubscribe

/-- A subscription that has not been left. -/
structure Live (run : List Request) (id : Nat) (channel : String) (since : List Request) : Prop where
  subscribed : Subscribed run id channel since
  stayed : Request.leave id ∉ since

/-- The payloads published on a channel since a subscriber last took what was waiting, of the requests since it subscribed. -/
def undrained (id : Nat) (channel : String) (since : List Request) : List String :=
  (since.rtakeWhile (· ≠ .drain id)).filterMap (Request.published? channel)

/-- A broker is as a run of requests has made it. -/
structure Sound (run : List Request) (b : Broker) : Prop where
  next : b.nextSubscriber = run.countP Request.isSubscribe
  ids : (b.subscribers.map Subscriber.id).Nodup
  channels : (b.lines.map Prod.fst).Nodup
  lines : (b.lines.map Prod.snd).Nodup
  opened : ∀ l ∈ b.lines, l.2 < b.nextLine
  known : ∀ s ∈ b.subscribers, ∃ channel since, Live run s.id channel since
  served : ∀ id channel since, Live run id channel since →
    ∃ s ∈ b.subscribers, s.id = id ∧ (channel, s.line) ∈ b.lines ∧ s.waiting = lastOf capacity (undrained id channel since)

namespace SubscriptionsAux

variable {run since : List Request} {b : Broker} {id : Nat} {channel payload : String} {r : Request}

/-! ## The last of a list -/

theorem lastOf_eq {α : Type} (n : Nat) (l : List α) : lastOf n l = (l.reverse.take n).reverse := by
  unfold lastOf
  rw [List.take_reverse, List.reverse_reverse]

theorem lastOf_nil {α : Type} (n : Nat) : lastOf n ([] : List α) = [] := List.drop_nil

/-- What is not among the last is not among them later either. -/
theorem lastOf_concat {α : Type} (n : Nat) (l : List α) (x : α) : lastOf n (lastOf n l ++ [x]) = lastOf n (l ++ [x]) := by
  rw [lastOf_eq, lastOf_eq, lastOf_eq, List.reverse_append, List.reverse_append, List.reverse_reverse, List.reverse_singleton]
  cases n with
  | zero => rfl
  | succ n => simp [List.take_take]

theorem put_id (payload : String) (s : Subscriber) : (s.put payload).id = s.id := by
  simp only [Subscriber.put]

theorem put_line (payload : String) (s : Subscriber) : (s.put payload).line = s.line := by
  simp only [Subscriber.put]

/-- What is put waits last, and no more wait than there is room for. -/
theorem put_waiting (payload : String) (s : Subscriber) :
    (s.put payload).waiting = lastOf capacity (s.waiting ++ [payload]) := by
  simp only [Subscriber.put]

/-! ## Histories -/

/-- A subscription after one more request: an earlier one, or that of the request. -/
theorem subscribed_concat {since' : List Request} : Subscribed (run ++ [r]) id channel since' ↔
    (∃ since, since' = since ++ [r] ∧ Subscribed run id channel since) ∨
      (since' = [] ∧ r = .subscribe channel ∧ id = run.countP Request.isSubscribe) := by
  unfold Subscribed
  constructor
  · rintro ⟨before, hrun, hid⟩
    rcases List.eq_nil_or_concat' since' with rfl | ⟨since, r', rfl⟩
    · obtain ⟨rfl, hr⟩ := List.append_inj' hrun rfl
      exact .inr ⟨rfl, (List.cons.inj hr).1, hid⟩
    · rw [← List.cons_append, ← List.append_assoc] at hrun
      obtain ⟨rfl, hr⟩ := List.append_inj' hrun rfl
      obtain rfl := (List.cons.inj hr).1
      exact .inl ⟨since, rfl, before, rfl, hid⟩
  · rintro (⟨since, rfl, before, rfl, hid⟩ | ⟨rfl, rfl, hid⟩)
    · exact ⟨before, by simp, hid⟩
    · exact ⟨run, rfl, hid⟩

/-- A subscription has a number that was given. -/
theorem lt_of_subscribed (h : Subscribed run id channel since) : id < run.countP Request.isSubscribe := by
  obtain ⟨before, rfl, rfl⟩ := h
  rw [List.countP_append, List.countP_cons_of_pos rfl]
  omega

/-- A live subscription stays one while its subscriber does not leave. -/
theorem live_concat (h : Live run id channel since) (hr : r ≠ .leave id) : Live (run ++ [r]) id channel (since ++ [r]) where
  subscribed := subscribed_concat.2 (.inl ⟨since, rfl, h.subscribed⟩)
  stayed hmem := by
    rcases List.mem_append.1 hmem with hmem | hmem
    · exact h.stayed hmem
    · exact hr (List.mem_singleton.1 hmem).symm

/-- A live subscription after one more request: an earlier one whose subscriber does not leave, or that of the request. -/
theorem live_of_concat {since' : List Request} (h : Live (run ++ [r]) id channel since') :
    (∃ since, since' = since ++ [r] ∧ Live run id channel since ∧ r ≠ .leave id) ∨
      (since' = [] ∧ r = .subscribe channel ∧ id = run.countP Request.isSubscribe) := by
  rcases subscribed_concat.1 h.subscribed with ⟨since, rfl, hs⟩ | hnew
  · refine .inl ⟨since, rfl, ⟨hs, fun hmem => ?_⟩, fun hr => ?_⟩
    · exact h.stayed (List.mem_append_left _ hmem)
    · exact h.stayed (List.mem_append_right _ (hr ▸ List.mem_singleton_self _))
  · exact .inr hnew

/-- Nothing is undrained right after draining. -/
theorem undrained_drain (id : Nat) (channel : String) (since : List Request) :
    undrained id channel (since ++ [.drain id]) = [] := by
  unfold undrained
  rw [List.rtakeWhile_concat_neg _ _ _ (by simp)]
  rfl

/-- A request adds to what is waiting what it publishes on the channel. -/
theorem undrained_concat (hr : r ≠ .drain id) :
    undrained id channel (since ++ [r]) = undrained id channel since ++ (r.published? channel).toList := by
  unfold undrained
  rw [List.rtakeWhile_concat_pos _ _ _ (by simpa using hr), List.filterMap_append]
  cases hp : r.published? channel <;> simp [hp]

/-- A request that neither publishes on a channel nor drains a subscription leaves what is undrained. -/
theorem undrained_other (hp : r.published? channel = none) (hr : r ≠ .drain id) :
    undrained id channel (since ++ [r]) = undrained id channel since := by
  rw [undrained_concat hr, hp]
  exact List.append_nil _

/-! ## Lines -/

/-- A channel has one line. -/
theorem line_unique (h : Sound run b) {line line' : Nat} (hl : (channel, line) ∈ b.lines) (hl' : (channel, line') ∈ b.lines) :
    line = line' := congrArg Prod.snd (List.inj_on_of_nodup_map h.channels hl hl' rfl)

/-- A line serves one channel. -/
theorem channel_unique (h : Sound run b) {channel' : String} {line : Nat} (hl : (channel, line) ∈ b.lines)
    (hl' : (channel', line) ∈ b.lines) : channel = channel' := congrArg Prod.fst (List.inj_on_of_nodup_map h.lines hl hl' rfl)

theorem mem_of_lookup {line : Nat} (h : b.lines.lookup channel = some line) : (channel, line) ∈ b.lines := by
  obtain ⟨before, after, hlines, -⟩ := List.lookup_eq_some_iff.1 h
  exact hlines ▸ List.mem_append_right _ List.mem_cons_self

theorem isLive_iff {line : Nat} : b.isLive line = true ↔ ∃ s ∈ b.subscribers, s.line = line := by
  unfold Broker.isLive
  simp

/-- Other lines leave a broker sound as long as everyone keeps theirs. -/
theorem sound_lines (h : Sound run b) {lines : List (String × Nat)} {nextLine : Nat} (hchannels : (lines.map Prod.fst).Nodup)
    (hlines : (lines.map Prod.snd).Nodup) (hopened : ∀ l ∈ lines, l.2 < nextLine)
    (hkept : ∀ s ∈ b.subscribers, ∀ channel, (channel, s.line) ∈ b.lines → (channel, s.line) ∈ lines) :
    Sound run { b with lines, nextLine } where
  next := h.next
  ids := h.ids
  channels := hchannels
  lines := hlines
  opened := hopened
  known := h.known
  served id channel since hlive := by
    obtain ⟨s, hs, hid, hline, hwaiting⟩ := h.served id channel since hlive
    exact ⟨s, hs, hid, hkept s hs channel hline, hwaiting⟩

/-- Only lines that nobody is on may be given up. -/
theorem sound_filter (h : Sound run b) {keep : String × Nat → Bool}
    (hkeep : ∀ s ∈ b.subscribers, ∀ channel, (channel, s.line) ∈ b.lines → keep (channel, s.line) = true) :
    Sound run { b with lines := b.lines.filter keep } :=
  sound_lines h (h.channels.sublist (List.filter_sublist.map _)) (h.lines.sublist (List.filter_sublist.map _))
    (fun l hl => h.opened l (List.mem_filter.1 hl).1) fun s hs channel hline => List.mem_filter.2 ⟨hline, hkeep s hs channel hline⟩

/-- A broker stays sound when lines that nobody is on are given up. -/
theorem sound_swept (h : Sound run b) : Sound run b.swept :=
  sound_filter h fun s hs _ _ => isLive_iff.2 ⟨s, hs, rfl⟩

/-- A channel gets a line if it has none. -/
theorem sound_withLine (h : Sound run b) (channel : String) :
    Sound run (b.withLine channel).2 ∧ (channel, (b.withLine channel).1) ∈ (b.withLine channel).2.lines := by
  unfold Broker.withLine
  cases hlookup : b.lines.lookup channel with
  | some line => exact ⟨h, mem_of_lookup hlookup⟩
  | none =>
    have hnew : ∀ l ∈ b.lines, l.1 ≠ channel := fun l hl =>
      (bne_iff_ne.1 (List.lookup_eq_none_iff.1 hlookup l hl)).symm
    refine ⟨sound_lines h ?_ ?_ ?_ fun s hs c hline => List.mem_append_left _ hline, by simp⟩
    · rw [List.map_append, List.nodup_append]
      refine ⟨h.channels, by simp, ?_⟩
      intro c hc c' hc'
      obtain ⟨l, hl, rfl⟩ := List.mem_map.1 hc
      obtain rfl : c' = channel := by simpa using hc'
      exact hnew l hl
    · rw [List.map_append, List.nodup_append]
      refine ⟨h.lines, by simp, ?_⟩
      intro n hn n' hn'
      obtain ⟨l, hl, rfl⟩ := List.mem_map.1 hn
      obtain rfl : n' = b.nextLine := by simpa using hn'
      exact Nat.ne_of_lt (h.opened l hl)
    · intro l hl
      rcases List.mem_append.1 hl with hl | hl
      · exact Nat.lt_succ_of_lt (h.opened l hl)
      · obtain rfl := List.mem_singleton.1 hl
        exact Nat.lt_succ_self _

/-! ## Steps -/

/-- Someone comes onto the line of a channel. -/
theorem sound_attach (h : Sound run b) {line : Nat} (hline : (channel, line) ∈ b.lines) :
    Sound (run ++ [.subscribe channel]) (b.attach line).2 where
  next := by
    show b.nextSubscriber + 1 = _
    rw [h.next, List.countP_append]
    rfl
  ids := by
    show ((b.subscribers ++ [_]).map Subscriber.id).Nodup
    rw [List.map_append, List.nodup_append]
    refine ⟨h.ids, by simp, ?_⟩
    intro n hn n' hn'
    obtain ⟨s, hs, rfl⟩ := List.mem_map.1 hn
    obtain rfl : n' = b.nextSubscriber := by simpa using hn'
    obtain ⟨c, since, hlive⟩ := h.known s hs
    exact Nat.ne_of_lt (h.next ▸ lt_of_subscribed hlive.subscribed)
  channels := h.channels
  lines := h.lines
  opened := h.opened
  known s hs := by
    rcases List.mem_append.1 hs with hs | hs
    · obtain ⟨c, since, hlive⟩ := h.known s hs
      exact ⟨c, _, live_concat hlive nofun⟩
    · obtain rfl := List.mem_singleton.1 hs
      exact ⟨channel, [], ⟨subscribed_concat.2 (.inr ⟨rfl, rfl, h.next⟩), List.not_mem_nil⟩⟩
  served id c since hlive := by
    rcases live_of_concat hlive with ⟨since, rfl, hlive, -⟩ | ⟨rfl, hr, rfl⟩
    · obtain ⟨s, hs, hid, hl, hwaiting⟩ := h.served id c since hlive
      have hsame : undrained id c (since ++ [.subscribe channel]) = undrained id c since := undrained_other rfl nofun
      exact ⟨s, List.mem_append_left _ hs, hid, hl, hsame ▸ hwaiting⟩
    · obtain rfl := Request.subscribe.inj hr
      exact ⟨_, List.mem_append_right _ List.mem_cons_self, h.next, hline, (lastOf_nil capacity).symm⟩

/-- A subscriber leaves. -/
theorem sound_leave (h : Sound run b) (gone : Nat) : Sound (run ++ [.leave gone]) (b.leave gone) where
  next := by
    show b.nextSubscriber = _
    rw [h.next, List.countP_append]
    rfl
  ids := h.ids.sublist (List.filter_sublist.map _)
  channels := h.channels
  lines := h.lines
  opened := h.opened
  known s hs := by
    obtain ⟨hs, hne⟩ := List.mem_filter.1 hs
    obtain ⟨c, since, hlive⟩ := h.known s hs
    exact ⟨c, _, live_concat hlive fun hr => by simp [Request.leave.inj hr] at hne⟩
  served id c since hlive := by
    rcases live_of_concat hlive with ⟨since, rfl, hlive, hstays⟩ | ⟨-, hr, -⟩
    · obtain ⟨s, hs, rfl, hl, hwaiting⟩ := h.served id c since hlive
      have hsame : undrained s.id c (since ++ [.leave gone]) = undrained s.id c since := undrained_other rfl nofun
      have hkept : (s.id != gone) = true := bne_iff_ne.2 fun e => hstays (congrArg Request.leave e.symm)
      exact ⟨s, List.mem_filter.2 ⟨hs, hkept⟩, rfl, hl, hsame ▸ hwaiting⟩
    · exact nomatch hr

/-- A request changes what is waiting, and nobody comes or goes. -/
theorem sound_map (h : Sound run b) (hsubscribe : r.isSubscribe = false) (hleave : ∀ gone, r ≠ .leave gone)
    {f : Subscriber → Subscriber} (hid : ∀ s, (f s).id = s.id) (hline : ∀ s, (f s).line = s.line)
    (hwaiting : ∀ s ∈ b.subscribers, ∀ channel since, (channel, s.line) ∈ b.lines →
      s.waiting = lastOf capacity (undrained s.id channel since) →
      (f s).waiting = lastOf capacity (undrained s.id channel (since ++ [r]))) :
    Sound (run ++ [r]) { b with subscribers := b.subscribers.map f } where
  next := by
    show b.nextSubscriber = _
    rw [h.next, List.countP_append, List.countP_singleton, hsubscribe]
    rfl
  ids := by
    have hids : (b.subscribers.map f).map Subscriber.id = b.subscribers.map Subscriber.id := by
      rw [List.map_map]
      exact List.map_congr_left fun s _ => hid s
    show ((b.subscribers.map f).map Subscriber.id).Nodup
    exact hids ▸ h.ids
  channels := h.channels
  lines := h.lines
  opened := h.opened
  known s hs := by
    obtain ⟨s₀, hs₀, rfl⟩ := List.mem_map.1 hs
    obtain ⟨c, since, hlive⟩ := h.known s₀ hs₀
    exact ⟨c, _, hid s₀ ▸ live_concat hlive (hleave _)⟩
  served id c since hlive := by
    rcases live_of_concat hlive with ⟨since, rfl, hlive, -⟩ | ⟨-, rfl, -⟩
    · obtain ⟨s, hs, rfl, hl, hw⟩ := h.served id c since hlive
      exact ⟨f s, List.mem_map_of_mem hs, hid s, hline s ▸ hl, hwaiting s hs c since hl hw⟩
    · exact nomatch hsubscribe

/-- A payload is published. Where no line of a subscriber is the channel's, nothing that is waiting changes. -/
theorem sound_publish (h : Sound run b) (channel payload : String) :
    Sound (run ++ [.publish channel payload]) (b.publish channel payload) := by
  have helsewhere : ∀ {id c since}, c ≠ channel →
      undrained id c (since ++ [.publish channel payload]) = undrained id c since := fun hc =>
    undrained_other (if_neg (Ne.symm hc)) nofun
  have hquiet : ∀ {b : Broker}, Sound run b → (∀ s ∈ b.subscribers, (channel, s.line) ∉ b.lines) →
      Sound (run ++ [.publish channel payload]) b := by
    intro b h hnobody
    have hsame := sound_map (r := .publish channel payload) (f := id) h rfl nofun (fun _ => rfl) (fun _ => rfl)
      fun s hs c since hline hwaiting => by
        have hc : c ≠ channel := fun e => hnobody s hs (e ▸ hline)
        rw [helsewhere hc]
        exact hwaiting
    rwa [List.map_id] at hsame
  unfold Broker.publish
  cases hlookup : b.lines.lookup channel with
  | none =>
    refine hquiet h fun s _ hline => ?_
    have hne := List.lookup_eq_none_iff.1 hlookup _ hline
    simp at hne
  | some line =>
    have hmem := mem_of_lookup hlookup
    dsimp only
    split
    · refine sound_map (r := .publish channel payload) (f := fun s => if s.line == line then s.put payload else s) h rfl nofun
        (fun s => ?_) (fun s => ?_) fun s _ c since hline hwaiting => ?_
      · split
        · exact put_id payload s
        · rfl
      · split
        · exact put_line payload s
        · rfl
      · by_cases hs : s.line = line
        · subst hs
          obtain rfl := channel_unique h hline hmem
          have hadded : undrained s.id c (since ++ [.publish c payload]) = undrained s.id c since ++ [payload] := by
            rw [undrained_concat (r := .publish c payload) nofun, Request.published?, if_pos rfl]
            rfl
          rw [if_pos (beq_self_eq_true _), hadded, put_waiting, hwaiting, lastOf_concat]
        · have hc : c ≠ channel := fun e => hs (line_unique h (e ▸ hline) hmem)
          rw [if_neg (by simpa using hs), helsewhere hc, hwaiting]
    · rename_i hdead
      have hnobody : ∀ s ∈ b.subscribers, (channel, s.line) ∉ b.lines := fun s hs hline =>
        hdead (isLive_iff.2 ⟨s, hs, line_unique h hline hmem⟩)
      refine hquiet (sound_filter h fun s hs c hline => ?_) fun s hs hline => ?_
      · exact bne_iff_ne.2 fun e : c = channel => hnobody s hs (e ▸ hline)
      · exact hnobody s hs (List.mem_filter.1 hline).1

/-- A subscriber takes what is waiting. -/
theorem sound_drain (h : Sound run b) (taker : Nat) : Sound (run ++ [.drain taker]) (b.drain taker).2 := by
  refine sound_map (r := .drain taker) (f := fun s => if s.id == taker then { s with waiting := [] } else s) h rfl nofun
    (fun s => ?_) (fun s => ?_) fun s _ c since _ hwaiting => ?_
  · split <;> rfl
  · split <;> rfl
  · by_cases hs : s.id = taker
    · subst hs
      rw [if_pos (beq_self_eq_true _), undrained_drain, lastOf_nil]
    · have hne : Request.drain taker ≠ .drain s.id := fun e => hs (Request.drain.inj e).symm
      rw [if_neg (by simpa using hs), undrained_other rfl hne, hwaiting]

/-- Whatever is asked of it, a broker stays as its history makes it. Lines that nobody is on are given up before a channel is subscribed
to, so it may get a new one. -/
theorem sound_take (h : Sound run b) (r : Request) : Sound (run ++ [r]) (b.take r) := by
  cases r with
  | subscribe channel =>
    obtain ⟨hsound, hline⟩ := sound_withLine (sound_swept h) channel
    exact sound_attach hsound hline
  | leave gone => exact sound_leave h gone
  | publish channel payload => exact sound_publish h channel payload
  | drain taker => exact sound_drain h taker

theorem after_concat (run : List Request) (r : Request) : Broker.after (run ++ [r]) = (Broker.after run).take r := by
  unfold Broker.after
  rw [List.foldl_append]
  rfl

/-- A broker is as its history has made it. -/
theorem sound_after (run : List Request) : Sound run (Broker.after run) := by
  induction run using List.reverseRecOn with
  | nil =>
    refine ⟨rfl, List.nodup_nil, List.nodup_nil, List.nodup_nil, nofun, nofun, fun id channel since hlive => ?_⟩
    obtain ⟨before, hrun, -⟩ := hlive.subscribed
    exact absurd hrun (by simp)
  | append_singleton run r ih =>
    rw [after_concat]
    exact sound_take ih r

/-! ## What a history says -/

/-- Those who are there are found by their numbers. -/
theorem subscriber?_of_mem (h : Sound run b) {s : Subscriber} (hs : s ∈ b.subscribers) : b.subscriber? s.id = some s := by
  have hsome : (b.subscriber? s.id).isSome := List.find?_isSome.2 ⟨s, hs, beq_self_eq_true _⟩
  obtain ⟨s', hs'⟩ := Option.isSome_iff_exists.1 hsome
  have hid : s'.id = s.id := by simpa using List.find?_some hs'
  obtain rfl := List.inj_on_of_nodup_map h.ids (List.mem_of_find?_eq_some hs') hs hid
  exact hs'

/-- Right after someone subscribes, someone is on every line. -/
theorem exists_on_line (b : Broker) (channel : String) :
    ∀ l ∈ (b.subscribe channel).2.lines, ∃ s ∈ (b.subscribe channel).2.subscribers, s.line = l.2 := by
  intro l hl
  unfold Broker.subscribe Broker.withLine at hl ⊢
  cases hlookup : b.swept.lines.lookup channel with
  | some line =>
    rw [hlookup] at hl
    obtain ⟨s, hs, hline⟩ := isLive_iff.1 (List.mem_filter.1 hl).2
    exact ⟨s, List.mem_append_left _ hs, hline⟩
  | none =>
    rw [hlookup] at hl
    rcases List.mem_append.1 hl with hl | hl
    · obtain ⟨s, hs, hline⟩ := isLive_iff.1 (List.mem_filter.1 hl).2
      exact ⟨s, List.mem_append_left _ hs, hline⟩
    · obtain rfl := List.mem_singleton.1 hl
      exact ⟨_, List.mem_append_right _ List.mem_cons_self, rfl⟩

/-- A channel has a line if someone is subscribed to it. -/
theorem exists_line (h : Sound run b) (hlive : Live run id channel since) : channel ∈ b.lines.map Prod.fst := by
  obtain ⟨s, -, -, hline, -⟩ := h.served id channel since hlive
  exact List.mem_map_of_mem (f := Prod.fst) hline

/-- A channel has a line only if someone is subscribed to it, as long as someone is on every line. -/
theorem exists_live (h : Sound run b) (hon : ∀ l ∈ b.lines, ∃ s ∈ b.subscribers, s.line = l.2) (hc : channel ∈ b.lines.map Prod.fst) :
    ∃ id since, Live run id channel since := by
  obtain ⟨⟨c, line⟩, hl, rfl⟩ := List.mem_map.1 hc
  obtain ⟨s, hs, rfl⟩ := hon _ hl
  obtain ⟨c', since, hlive⟩ := h.known s hs
  obtain ⟨s', hs', hid, hline, -⟩ := h.served s.id c' since hlive
  obtain rfl := List.inj_on_of_nodup_map h.ids hs' hs hid
  obtain rfl := channel_unique h hline hl
  exact ⟨_, since, hlive⟩

end SubscriptionsAux

open SubscriptionsAux

/-- For every run of requests to a new broker. Of a subscription that is live the subscriber is there and is not cut off, and it drains
the payloads published on its channel since it last drained, in order, the newest of them if they are more than it keeps. And whoever
subscribes next has, under the number it is given, a live subscription; just then the channels that have a line are, each once, those
to which a subscription is live. -/
theorem subscriptions_follow_history (run : List Request) :
    (∀ id channel since, Live run id channel since →
      (∃ s, (Broker.after run).subscriber? id = some s ∧ (Broker.after run).isCutOff s = false) ∧
        ((Broker.after run).drain id).1 = lastOf capacity (undrained id channel since)) ∧
    ∀ channel, Live (run ++ [.subscribe channel]) ((Broker.after run).subscribe channel).1 channel [] ∧
      ((Broker.after (run ++ [.subscribe channel])).lines.map Prod.fst).Nodup ∧
      ∀ c, c ∈ (Broker.after (run ++ [.subscribe channel])).lines.map Prod.fst ↔
        ∃ id since, Live (run ++ [.subscribe channel]) id c since := by
  have hsound := sound_after run
  refine ⟨fun id channel since hlive => ?_, fun channel => ?_⟩
  · obtain ⟨s, hs, rfl, hline, hwaiting⟩ := hsound.served id channel since hlive
    have hfound := subscriber?_of_mem hsound hs
    refine ⟨⟨s, hfound, ?_⟩, ?_⟩
    · have hany : (Broker.after run).lines.any (·.2 == s.line) = true := List.any_eq_true.2 ⟨_, hline, beq_self_eq_true _⟩
      unfold Broker.isCutOff
      rw [hany]
      rfl
    · unfold Broker.drain
      rw [hfound]
      exact hwaiting
  · have hafter := sound_after (run ++ [.subscribe channel])
    have hnumber : ((Broker.after run).subscribe channel).1 = run.countP Request.isSubscribe :=
      (sound_withLine (sound_swept hsound) channel).1.next
    refine ⟨⟨subscribed_concat.2 (.inr ⟨rfl, rfl, hnumber⟩), List.not_mem_nil⟩, hafter.channels, fun c => ⟨fun hc => ?_, ?_⟩⟩
    · refine exists_live hafter ?_ hc
      rw [after_concat]
      exact exists_on_line (Broker.after run) channel
    · rintro ⟨id, since, hlive⟩
      exact exists_line hafter hlive

/-- A channel that was forgotten and came back serves its new subscriber, beside another channel, and the subscriber who has left is
not among those for whom a channel is kept. -/
theorem subscriptions_follow_history_reopened :
    let run : List Request := [.subscribe "a", .publish "a" "lost", .leave 0, .publish "a" "nobody", .subscribe "b", .subscribe "a",
      .publish "a" "taken", .drain 2, .publish "a" "first", .publish "b" "elsewhere", .publish "a" "second"]
    Live run 2 "a" (run.drop 6) ∧ ((Broker.after run).drain 2).1 = ["first", "second"] ∧
      (∃ s, (Broker.after run).subscriber? 2 = some s ∧ (Broker.after run).isCutOff s = false) ∧
      Live (run ++ [.leave 1] ++ [.subscribe "c"]) 3 "c" [] ∧
      "a" ∈ (Broker.after (run ++ [.leave 1] ++ [.subscribe "c"])).lines.map Prod.fst ∧
      "b" ∉ (Broker.after (run ++ [.leave 1] ++ [.subscribe "c"])).lines.map Prod.fst := by
  intro run
  have hlive : Live run 2 "a" (run.drop 6) := ⟨⟨run.take 5, rfl, rfl⟩, by decide⟩
  obtain ⟨hthere, hdrain⟩ := (subscriptions_follow_history run).1 2 "a" _ hlive
  obtain ⟨hnext, -, hlines⟩ := (subscriptions_follow_history (run ++ [.leave 1])).2 "c"
  have hkept := (hlines "a").2 ⟨2, _, ⟨run.take 5, rfl, rfl⟩, by decide⟩
  exact ⟨hlive, hdrain.trans (by decide), hthere, hnext, hkept, by decide⟩

end InferenceGate.Messaging
