import AlgoBot.Core.Machine
import AlgoBot.Python.Value
import Mathlib.Data.List.Basic

/-!
# Market events over websockets

A `MarketEventConsumer` serves one browser. It joins the groups of the symbols that the browser
subscribes to, one call of the channel layer after the other, and forwards what is sent to them.
Each consumer handles one message at a time; the publishers and the other consumers go on while it
waits for the layer. A call that fails raises, and the consumer is gone.

* `groups_follow_subscriptions`: the layer has a consumer in no other groups than it knows of, in
  the same ones whenever it is idle, and in none after it has left.
* `forwarded_while_subscribed`: what is forwarded was published to one of the groups at that time.
-/

namespace AlgoBot.Realtime

open AlgoBot.Core AlgoBot.Python

/-! ## Messages -/

/-- What a publisher sends to the group of a symbol. -/
structure Event where
  symbol : String
  event_type : String
  payload : Value

inductive Message
  | ready
  | pong
  | subscribed (symbols : List String)
  | unsubscribed
  | error (code message : String) (symbols : List String)
  | event (event_type : String) (payload : Value)

/-- What is left of a handler. The groups are written by their symbols. -/
inductive Command
  | discard (symbol : String)
  | add (symbol : String)
  | assign (symbols : List String)
  | reply (message : Message)

inductive Phase
  | waiting
  | rejected
  | accepted
  /-- The handler of the disconnect has started. -/
  | leaving
  | crashed
  deriving DecidableEq

structure Consumer where
  phase : Phase
  /-- `self.market_groups`, a set in the order in which it is gone through. -/
  market_groups : List String
  /-- The groups in which the channel layer has the channel. -/
  member : List String
  running : List Command
  inbox : List Event
  /-- What has been forwarded, with the group it has come from. -/
  forwarded : List Event
  sent : List Message

def Consumer.initial : Consumer := ⟨.waiting, [], [], [], [], [], []⟩

/-! ## Handlers -/

section Handlers

variable (h : Host)

def MAX_SYMBOLS : ℕ := 20

/-- `str(value or "")`. -/
def text (value : Value) : String := (value.or (.str "")).toStr h

/-- `raw_symbols`. -/
def rawSymbols (content : Dict) : List Value :=
  match Dict.get content "symbols" with
  | .none => [Dict.get content "symbol"]
  | .list raw => raw
  | raw => [raw]

/-- The turn of the loop over the raw symbols. -/
def keepSymbol (symbols : List String) (raw : Value) : List String :=
  let symbol := strip (text h raw)
  if symbol ≠ "" ∧ symbol.length ≤ 40 ∧ symbol ∉ symbols then symbols ++ [symbol] else symbols

def symbolsOf (raw : List Value) : List String := (raw.take MAX_SYMBOLS).foldl (keepSymbol h) []

/-- What `receive_json` does, after it has asked the catalogue; `none` where it raises. -/
def receive_json (market_groups : List String) (content : Value)
    (symbol_exists : String → Option Bool) : Option (List Command) :=
  match content with
  | .dict content =>
    let action := h.lower (text h (Dict.get content "action"))
    if action = "ping" then some [.reply .pong]
    else if action = "subscribe" then
      let symbols := symbolsOf h (rawSymbols content)
      if symbols.isEmpty then
        some [.reply (.error "UNKNOWN_SYMBOL" "At least one valid market symbol is required." [])]
      else if symbols.any fun symbol => (symbol_exists symbol).isNone then none
      else
        let invalid := symbols.filter fun symbol => symbol_exists symbol ≠ some true
        if invalid ≠ [] then
          some [.reply (.error "UNKNOWN_SYMBOL"
            "One or more requested market symbols are unavailable." invalid)]
        else
          some (market_groups.map .discard ++ .assign symbols ::
            (symbols.map .add ++ [.reply (.subscribed symbols)]))
    else if action = "unsubscribe" then
      some (market_groups.map .discard ++ [.assign [], .reply .unsubscribed])
    else some [.reply (.error "UNSUPPORTED_ACTION" "Unsupported websocket action." [])]
  | _ => none

end Handlers

/-! ## Consumers and publishers -/

inductive ConsumerStep
  | connect (authenticated : Bool)
  | receive (content : Value) (symbol_exists : String → Option Bool)
  /-- The next command of the handler, and whether the channel layer takes it. -/
  | run (works : Bool)
  | deliver
  | disconnect

namespace Consumer

/-- The groups and the layer after a command. -/
def exec : Command → List String × List String → List String × List String
  | .discard symbol, (groups, member) => (groups, member.filter fun s => s ≠ symbol)
  | .add symbol, (groups, member) => (groups, member ++ [symbol])
  | .assign symbols, (_, member) => (symbols, member)
  | .reply _, state => state

/-- Only the calls of the layer fail. -/
def fails : Command → Bool → Bool
  | .discard _, works => !works
  | .add _, works => !works
  | _, _ => false

def step (h : Host) (c : Consumer) : ConsumerStep → Option Consumer
  | .connect authenticated =>
    if c.phase = .waiting then
      if authenticated then some { c with phase := .accepted, sent := c.sent ++ [.ready] }
      else some { c with phase := .rejected }
    else none
  | .receive content symbol_exists =>
    if c.phase = .accepted ∧ c.running = [] then
      match receive_json h c.market_groups content symbol_exists with
      | some commands => some { c with running := commands }
      | none => some { c with phase := .crashed }
    else none
  | .run works =>
    match c.running with
    | [] => none
    | command :: rest =>
      if fails command works then some { c with phase := .crashed, running := [] }
      else some { c with
        market_groups := (exec command (c.market_groups, c.member)).1
        member := (exec command (c.market_groups, c.member)).2
        running := rest
        sent := match command with
          | .reply message => c.sent ++ [message]
          | _ => c.sent }
  | .deliver =>
    if c.phase = .accepted ∧ c.running = [] then
      match c.inbox with
      | [] => none
      | event :: rest => some { c with
          inbox := rest
          forwarded := c.forwarded ++ [event]
          sent := c.sent ++ [.event event.event_type event.payload] }
    else none
  | .disconnect =>
    if c.running = [] then
      match c.phase with
      | .accepted => some { c with
          phase := .leaving
          running := c.market_groups.map .discard ++ [.assign []] }
      -- `market_groups` has not been set
      | .rejected => some { c with phase := .crashed }
      | _ => none
    else none

end Consumer

/-- The consumers, by the names of their channels. -/
abbrev Hub := ℕ → Consumer

inductive HubStep
  | consumer (channel : ℕ) (step : ConsumerStep)
  /-- The layer puts an event into the channels of its group that have room for it. -/
  | publish (event : Event) (room : ℕ → Bool)

def Hub.initial : Hub := fun _ => .initial

def hubStep (h : Host) (s : Hub) : HubStep → Option Hub
  | .consumer channel step =>
    ((s channel).step h step).map fun c => Function.update s channel c
  | .publish event room => some fun channel =>
    if event.symbol ∈ (s channel).member ∧ room channel = true then
      { s channel with inbox := (s channel).inbox ++ [event] }
    else s channel

def hub (h : Host) : Machine Hub HubStep where
  next := hubStep h

/-! ## Along the rest of a handler -/

namespace Consumer

/-- The groups and what the layer has. -/
structure Covers (state : List String × List String) : Prop where
  member : ∀ s ∈ state.2, s ∈ state.1
  few : state.1.length ≤ MAX_SYMBOLS
  proper : ∀ s ∈ state.1, s ≠ "" ∧ s.length ≤ 40

/-- It holds before each command, and the end is as wanted. -/
def Along (final : List String × List String → Prop) :
    List Command → List String × List String → Prop
  | [], state => Covers state ∧ final state
  | command :: rest, state => Covers state ∧ Along final rest (exec command state)

variable {final : List String × List String → Prop} {groups member : List String}
  {state : List String × List String} {rest commands : List Command}

theorem Along.covers (h : Along final commands state) : Covers state := by
  cases commands with
  | nil => exact h.1
  | cons command rest => exact h.1

theorem Along.mono {final' : List String × List String → Prop}
    (himp : ∀ state, final state → final' state) (h : Along final commands state) :
    Along final' commands state := by
  induction commands generalizing state with
  | nil => exact ⟨h.1, himp state h.2⟩
  | cons command rest ih => exact ⟨h.1, ih h.2⟩

/-- When everything has been discarded, the layer has nothing left. -/
theorem along_discards (discarded : List String)
    (hmember : ∀ s ∈ member, s ∈ discarded) (hcovers : Covers (groups, member))
    (hrest : Along final rest (groups, [])) :
    Along final (discarded.map .discard ++ rest) (groups, member) := by
  induction discarded generalizing member with
  | nil =>
    have hnil : member = [] := by
      cases member with
      | nil => rfl
      | cons s others => exact absurd (hmember s List.mem_cons_self) List.not_mem_nil
    rw [hnil]
    exact hrest
  | cons symbol others ih =>
    refine ⟨hcovers, ih ?_ ⟨?_, hcovers.few, hcovers.proper⟩⟩
    · intro s hs
      obtain ⟨hs, hne⟩ := List.mem_filter.mp hs
      exact (List.mem_cons.mp (hmember s hs)).resolve_left (of_decide_eq_true hne)
    · intro s hs
      exact hcovers.member s (List.mem_filter.mp hs).1

/-- What is added are groups that the consumer knows. -/
theorem along_adds (added : List String) (hadded : ∀ s ∈ added, s ∈ groups)
    (hcovers : Covers (groups, member))
    (hrest : Covers (groups, member ++ added) → Along final rest (groups, member ++ added)) :
    Along final (added.map .add ++ rest) (groups, member) := by
  induction added generalizing member with
  | nil =>
    rw [List.append_nil] at hrest
    exact hrest hcovers
  | cons symbol others ih =>
    have happend : member ++ symbol :: others = member ++ [symbol] ++ others :=
      (List.append_cons member symbol others)
    refine ⟨hcovers, ih (fun s hs => hadded s (List.mem_cons_of_mem symbol hs)) ?_ ?_⟩
    · refine ⟨?_, hcovers.few, hcovers.proper⟩
      intro s hs
      rcases List.mem_append.mp hs with hs | hs
      · exact hcovers.member s hs
      · rw [List.mem_singleton.mp hs]
        exact hadded symbol List.mem_cons_self
    · rw [← happend]
      exact hrest

/-- The consumer and the layer agree, on nothing when it has left. -/
def Settled (phase : Phase) (state : List String × List String) : Prop :=
  (∀ s, s ∈ state.2 ↔ s ∈ state.1) ∧ (phase = .leaving → state.1 = [])

/-- What holds of a consumer between the steps of all. -/
structure Inv (c : Consumer) : Prop where
  covers : Covers (c.market_groups, c.member)
  along : c.phase ≠ .crashed →
    Along (Settled c.phase) c.running (c.market_groups, c.member)
  crashed : c.phase = .crashed → c.running = []

/-! ## The symbols of a subscription -/

variable {h : Host}

/-- Symbols that a subscription may have. -/
structure Proper (symbols : List String) : Prop where
  nodup : symbols.Nodup
  each : ∀ s ∈ symbols, s ≠ "" ∧ s.length ≤ 40

theorem keepSymbol_spec {symbols : List String} (hsymbols : Proper symbols) (raw : Value) :
    Proper (keepSymbol h symbols raw) ∧
      (keepSymbol h symbols raw).length ≤ symbols.length + 1 := by
  unfold keepSymbol
  dsimp only
  split
  · next hnew =>
    obtain ⟨hne, hlength, hnot⟩ := hnew
    refine ⟨⟨?_, ?_⟩, by rw [List.length_append, List.length_singleton]⟩
    · rw [← List.concat_eq_append]
      exact hsymbols.nodup.concat hnot
    · intro s hs
      rcases List.mem_append.mp hs with hs | hs
      · exact hsymbols.each s hs
      · rw [List.mem_singleton.mp hs]
        exact ⟨hne, hlength⟩
  · exact ⟨hsymbols, Nat.le_succ _⟩

theorem foldl_keepSymbol (raw : List Value) {symbols : List String} (hsymbols : Proper symbols) :
    Proper (raw.foldl (keepSymbol h) symbols) ∧
      (raw.foldl (keepSymbol h) symbols).length ≤ symbols.length + raw.length := by
  induction raw generalizing symbols with
  | nil => exact ⟨hsymbols, Nat.le_refl _⟩
  | cons first rest ih =>
    obtain ⟨hproper, hlength⟩ := keepSymbol_spec hsymbols first (h := h)
    obtain ⟨hrest, hrestLength⟩ := ih hproper
    rw [List.foldl_cons, List.length_cons]
    exact ⟨hrest, by omega⟩

/-- At most twenty symbols, none of them twice. -/
theorem symbolsOf_spec (raw : List Value) :
    Proper (symbolsOf h raw) ∧ (symbolsOf h raw).length ≤ MAX_SYMBOLS := by
  have hnil : Proper [] := ⟨List.nodup_nil, fun s hs => absurd hs List.not_mem_nil⟩
  obtain ⟨hproper, hlength⟩ := foldl_keepSymbol (h := h) (raw.take MAX_SYMBOLS) hnil
  refine ⟨hproper, hlength.trans ?_⟩
  rw [List.length_nil, Nat.zero_add, List.length_take]
  exact Nat.min_le_left _ _

/-! ## Steps -/

variable {c c' : Consumer}

theorem covers_empty : Covers ([], []) :=
  ⟨fun s hs => hs, Nat.zero_le _, fun s hs => absurd hs List.not_mem_nil⟩

theorem inv_initial : Inv .initial :=
  ⟨covers_empty, fun _ => ⟨covers_empty, fun _ => Iff.rfl, fun _ => rfl⟩, fun _ => rfl⟩

/-- What an idle consumer has, when its phase changes to one that has not left. -/
theorem Inv.idle (hc : c.Inv) (hrunning : c.running = []) (hphase : c.phase ≠ .crashed) :
    ∀ s, s ∈ c.member ↔ s ∈ c.market_groups := by
  have halong := hc.along hphase
  rw [hrunning] at halong
  exact halong.2.1

/-- What a subscription does to the layer. -/
theorem along_receive {content : Value} {symbol_exists : String → Option Bool}
    (hcovers : Covers (groups, member)) (hsame : ∀ s, s ∈ member ↔ s ∈ groups)
    (h' : receive_json h groups content symbol_exists = some commands) :
    Along (Settled .accepted) commands (groups, member) := by
  have hsettled : Settled .accepted (groups, member) := ⟨hsame, fun hphase => by cases hphase⟩
  have hreply : ∀ message, Along (Settled .accepted) [.reply message] (groups, member) :=
    fun message => ⟨hcovers, hcovers, hsettled⟩
  unfold receive_json at h'
  cases content with
  | dict content =>
    dsimp only at h'
    split at h'
    · obtain rfl := Option.some.inj h'
      exact hreply _
    · split at h'
      · split at h'
        · obtain rfl := Option.some.inj h'
          exact hreply _
        · split at h'
          · cases h'
          · split at h'
            · obtain rfl := Option.some.inj h'
              exact hreply _
            · -- the new groups replace the old ones, which the layer has given up
              obtain rfl := Option.some.inj h'
              obtain ⟨hproper, hfew⟩ := symbolsOf_spec (h := h) (rawSymbols content)
              have hnew : Covers (symbolsOf h (rawSymbols content), []) :=
                ⟨fun s hs => absurd hs List.not_mem_nil, hfew, hproper.each⟩
              refine along_discards groups hcovers.member hcovers ?_
              refine ⟨⟨fun s hs => absurd hs List.not_mem_nil, hcovers.few, hcovers.proper⟩, ?_⟩
              refine along_adds _ (fun s hs => hs) hnew fun hall => ?_
              exact ⟨hall, hall, fun s => Iff.rfl, fun hphase => by cases hphase⟩
      · split at h'
        · obtain rfl := Option.some.inj h'
          refine along_discards groups hcovers.member hcovers ?_
          exact ⟨⟨fun s hs => absurd hs List.not_mem_nil, hcovers.few, hcovers.proper⟩,
            covers_empty, covers_empty, fun s => Iff.rfl, fun _ => rfl⟩
        · obtain rfl := Option.some.inj h'
          exact hreply _
  | none => cases h'
  | bool b => cases h'
  | int n => cases h'
  | float x => cases h'
  | str s => cases h'
  | list xs => cases h'

theorem Inv.step {a : ConsumerStep} (hc : c.Inv) (hstep : c.step h a = some c') : c'.Inv := by
  cases a with
  | connect authenticated =>
    simp only [Consumer.step] at hstep
    split at hstep
    · next hphase =>
      have halong := hc.along (by rw [hphase]; nofun)
      have hsettled : ∀ phase : Phase, phase ≠ .leaving →
          Along (Settled phase) c.running (c.market_groups, c.member) :=
        fun phase hne => halong.mono fun state hs => ⟨hs.1, fun h => absurd h hne⟩
      split at hstep
      · obtain rfl := Option.some.inj hstep
        exact ⟨hc.covers, fun _ => hsettled .accepted (by nofun), fun h => by cases h⟩
      · obtain rfl := Option.some.inj hstep
        exact ⟨hc.covers, fun _ => hsettled .rejected (by nofun), fun h => by cases h⟩
    · cases hstep
  | receive content symbol_exists =>
    simp only [Consumer.step] at hstep
    split at hstep
    · next hidle =>
      obtain ⟨hphase, hrunning⟩ := hidle
      have hsame := hc.idle hrunning (by rw [hphase]; nofun)
      split at hstep
      · next commands hcommands =>
        obtain rfl := Option.some.inj hstep
        refine ⟨hc.covers, fun _ => ?_, fun hcrashed => ?_⟩
        · show Along (Settled c.phase) commands (c.market_groups, c.member)
          rw [hphase]
          exact along_receive hc.covers hsame hcommands
        · rw [show c.phase = .crashed from hcrashed] at hphase
          cases hphase
      · obtain rfl := Option.some.inj hstep
        exact ⟨hc.covers, fun hne => absurd rfl hne, fun _ => hrunning⟩
    · cases hstep
  | run works =>
    simp only [Consumer.step] at hstep
    split at hstep
    · cases hstep
    · next command rest hrunning =>
      have hphase : c.phase ≠ .crashed := by
        intro hcrashed
        rw [hc.crashed hcrashed] at hrunning
        cases hrunning
      have halong := hc.along hphase
      rw [hrunning] at halong
      split at hstep
      · obtain rfl := Option.some.inj hstep
        exact ⟨hc.covers, fun hne => absurd rfl hne, fun _ => rfl⟩
      · obtain rfl := Option.some.inj hstep
        exact ⟨halong.2.covers, fun _ => halong.2, fun hcrashed => absurd hcrashed hphase⟩
  | deliver =>
    simp only [Consumer.step] at hstep
    split at hstep
    · split at hstep
      · cases hstep
      · obtain rfl := Option.some.inj hstep
        exact ⟨hc.covers, hc.along, hc.crashed⟩
    · cases hstep
  | disconnect =>
    simp only [Consumer.step] at hstep
    split at hstep
    · next hrunning =>
      split at hstep
      · next hphase =>
        obtain rfl := Option.some.inj hstep
        refine ⟨hc.covers, fun _ => ?_, fun hcrashed => by cases hcrashed⟩
        refine along_discards c.market_groups hc.covers.member hc.covers ?_
        exact ⟨⟨fun s hs => absurd hs List.not_mem_nil, hc.covers.few, hc.covers.proper⟩,
          covers_empty, fun s => Iff.rfl, fun _ => rfl⟩
      · obtain rfl := Option.some.inj hstep
        exact ⟨hc.covers, fun hne => absurd rfl hne, fun _ => hrunning⟩
      · cases hstep
    · cases hstep

end Consumer

/-! ## Runs -/

variable {h : Host} {as : List HubStep} {s t : Hub} {channel : ℕ}

/-- A publication changes no consumer but its inbox. -/
theorem inv_hubStep {a : HubStep} (hs : ∀ channel, (s channel).Inv)
    (hstep : (hub h).next s a = some t) : ∀ channel, (t channel).Inv := by
  change hubStep h s a = some t at hstep
  cases a with
  | consumer channel step =>
    obtain ⟨c, hc, rfl⟩ := Option.map_eq_some_iff.mp hstep
    intro other
    by_cases hother : other = channel
    · rw [hother, Function.update_self]
      exact (hs channel).step hc
    · rw [Function.update_of_ne hother]
      exact hs other
  | publish event room =>
    obtain rfl := Option.some.inj hstep
    intro channel
    dsimp only
    split
    · exact ⟨(hs channel).covers, (hs channel).along, (hs channel).crashed⟩
    · exact hs channel

/-- In every run of the consumers and the publishers, calls of the layer that fail among them: a
consumer knows at most twenty groups, and all in which the layer has it; an idle consumer is in
exactly those, and one that has left is in none. -/
theorem groups_follow_subscriptions (hrun : (hub h).Run Hub.initial as s) (channel : ℕ) :
    (s channel).market_groups.length ≤ MAX_SYMBOLS ∧
    (∀ symbol ∈ (s channel).member, symbol ∈ (s channel).market_groups) ∧
    ((s channel).running = [] → (s channel).phase ≠ .crashed →
      ∀ symbol, symbol ∈ (s channel).member ↔ symbol ∈ (s channel).market_groups) ∧
    ((s channel).running = [] → (s channel).phase = .leaving → (s channel).member = []) := by
  have hinv : ∀ channel, (s channel).Inv := Machine.RunIf.invariant
    (fun _ _ _ _ hs hstep => inv_hubStep hs hstep) hrun fun _ => Consumer.inv_initial
  have hc := hinv channel
  refine ⟨hc.covers.few, hc.covers.member, hc.idle, ?_⟩
  intro hrunning hphase
  have halong := hc.along (by rw [hphase]; nofun)
  rw [hrunning] at halong
  have hempty := halong.2.2 hphase
  rw [List.eq_nil_iff_forall_not_mem]
  intro symbol hsymbol
  have hgroups := hc.covers.member symbol hsymbol
  rw [hempty] at hgroups
  cases hgroups

/-- The events that have reached a consumer. -/
def Consumer.reached (c : Consumer) : List Event := c.forwarded ++ c.inbox

theorem Consumer.reached_step {c c' : Consumer} {a : ConsumerStep}
    (hstep : c.step h a = some c') : c'.reached = c.reached := by
  cases a with
  | connect authenticated =>
    simp only [Consumer.step] at hstep
    split at hstep
    · split at hstep
      · obtain rfl := Option.some.inj hstep
        rfl
      · obtain rfl := Option.some.inj hstep
        rfl
    · cases hstep
  | receive content symbol_exists =>
    simp only [Consumer.step] at hstep
    split at hstep
    · split at hstep
      · obtain rfl := Option.some.inj hstep
        rfl
      · obtain rfl := Option.some.inj hstep
        rfl
    · cases hstep
  | run works =>
    simp only [Consumer.step] at hstep
    split at hstep
    · cases hstep
    · split at hstep
      · obtain rfl := Option.some.inj hstep
        rfl
      · obtain rfl := Option.some.inj hstep
        rfl
  | deliver =>
    simp only [Consumer.step] at hstep
    split at hstep
    · split at hstep
      · cases hstep
      · next event rest hinbox =>
        obtain rfl := Option.some.inj hstep
        show c.forwarded ++ [event] ++ rest = c.forwarded ++ c.inbox
        rw [hinbox, List.append_assoc, List.singleton_append]
    · cases hstep
  | disconnect =>
    simp only [Consumer.step] at hstep
    split at hstep
    · split at hstep
      · obtain rfl := Option.some.inj hstep
        rfl
      · obtain rfl := Option.some.inj hstep
        rfl
      · cases hstep
    · cases hstep

/-- An event reaches a consumer when it is published to one of its groups. -/
theorem reached_of_hubStep {a : HubStep} {event : Event}
    (hstep : (hub h).next s a = some t) (hevent : event ∈ (t channel).reached) :
    event ∈ (s channel).reached ∨
      (∃ room, a = .publish event room) ∧ event.symbol ∈ (s channel).member := by
  change hubStep h s a = some t at hstep
  cases a with
  | consumer other step =>
    obtain ⟨c, hc, rfl⟩ := Option.map_eq_some_iff.mp hstep
    by_cases hother : channel = other
    · rw [hother, Function.update_self, Consumer.reached_step hc] at hevent
      rw [hother]
      exact Or.inl hevent
    · rw [Function.update_of_ne hother] at hevent
      exact Or.inl hevent
  | publish published room =>
    obtain rfl := Option.some.inj hstep
    dsimp only at hevent
    split at hevent
    · next hroom =>
      rw [Consumer.reached, ← List.append_assoc] at hevent
      rcases List.mem_append.mp hevent with hold | hnew
      · exact Or.inl hold
      · obtain rfl := List.mem_singleton.mp hnew
        exact Or.inr ⟨⟨room, rfl⟩, hroom.1⟩
    · exact Or.inl hevent

theorem published_of_reached {event : Event} (hrun : (hub h).Run s as t)
    (hevent : event ∈ (t channel).reached) :
    event ∈ (s channel).reached ∨ ∃ before room after u,
      as = before ++ .publish event room :: after ∧ (hub h).Run s before u ∧
        event.symbol ∈ (u channel).member := by
  induction hrun with
  | nil => exact Or.inl hevent
  | @cons s next t a rest hguard hnext hrest ih =>
    rcases ih hevent with hearlier | ⟨before, room, after, u, rfl, hbefore, hmember⟩
    · rcases reached_of_hubStep hnext hearlier with hold | ⟨⟨room, rfl⟩, hmember⟩
      · exact Or.inl hold
      · exact Or.inr ⟨[], room, rest, s, rfl, Machine.RunIf.nil s, hmember⟩
    · exact Or.inr ⟨a :: before, room, after, u, rfl,
        Machine.RunIf.cons hguard hnext hbefore, hmember⟩

/-- Whatever a consumer forwards has been published, earlier in the run, to a group that the
consumer was in and knew of at that time. -/
theorem forwarded_while_subscribed {event : Event} (hrun : (hub h).Run Hub.initial as s)
    (hevent : event ∈ (s channel).forwarded) :
    ∃ before room after u, as = before ++ .publish event room :: after ∧
      (hub h).Run Hub.initial before u ∧ event.symbol ∈ (u channel).market_groups := by
  have hreached : event ∈ (s channel).reached := List.mem_append_left _ hevent
  rcases published_of_reached hrun hreached with hnone | ⟨before, room, after, u, has, hu, hmember⟩
  · cases hnone
  · exact ⟨before, room, after, u, has, hu,
      (groups_follow_subscriptions hu channel).2.1 _ hmember⟩

/-! ### A browser and a tick -/

def subscription : Value := .dict [("action", .str "subscribe"), ("symbol", .str "R_100")]

def sampleTick : Event := ⟨"R_100", "tick", .int 7⟩

/-- It subscribes to one symbol, and the tick comes. -/
def sampleHub : List HubStep :=
  [.consumer 0 (.connect true), .consumer 0 (.receive subscription fun _ => some true),
    .consumer 0 (.run true), .consumer 0 (.run true), .consumer 0 (.run true),
    .publish sampleTick fun _ => true, .consumer 0 .deliver]

theorem sample_groups : ∃ s, (hub Host.ascii).Run Hub.initial sampleHub s ∧
    (s 0).market_groups.length ≤ MAX_SYMBOLS := by
  have hexec : ((hub Host.ascii).exec Hub.initial sampleHub).isSome = true := by decide +kernel
  obtain ⟨s, hs⟩ := Machine.exists_run hexec
  exact ⟨s, hs, (groups_follow_subscriptions hs 0).1⟩

theorem sample_forwarded : ∃ s, (hub Host.ascii).Run Hub.initial sampleHub s ∧
    ∃ event ∈ (s 0).forwarded, ∃ before room after u,
      sampleHub = before ++ .publish event room :: after ∧
      (hub Host.ascii).Run Hub.initial before u ∧ event.symbol ∈ (u 0).market_groups := by
  have hexec : ((hub Host.ascii).exec Hub.initial sampleHub).map (fun s => (s 0).forwarded.length) =
      some 1 := by decide +kernel
  obtain ⟨s, hs, hlength⟩ := Option.map_eq_some_iff.mp hexec
  have hrun := Machine.exec_eq_some_iff.mp hs
  obtain ⟨event, hevent⟩ := List.exists_mem_of_length_pos (by rw [hlength]; exact Nat.one_pos)
  exact ⟨s, hrun, event, hevent, forwarded_while_subscribed hrun hevent⟩

end AlgoBot.Realtime
