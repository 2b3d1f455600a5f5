import Cosmwasgo.Runs.Entries
import Cosmwasgo.Runs.Roots
import Cosmwasgo.Runs.Unmetered

namespace Cosmwasgo.Properties

open Cosmwasgo.Lib Cosmwasgo.Types Cosmwasgo.State Cosmwasgo.Keeper Cosmwasgo.Runs

variable {X : Type} {k : Keeper X}

section Channels

variable {d : Durable X} {chans : List IdentifiedChannel} {caller : AccAddress} {p q : String}

/-- The channels there are, as the scan for a prefix shows them. -/
def Scans (h : Host X) (x : X) (chans : List IdentifiedChannel) : Prop := ∀ p, ∃ l,
  (h.getAllChannelsWithPortPrefix p x).result = .ok l ∧ l.Perm (chans.filter fun ch ↦ p.toList <+: ch.portID.toList)

/-- The port a request without one is for is that of the caller. -/
def AskedPort (d : Durable X) (caller : AccAddress) (p q : String) : Prop :=
  if p = "" then ∃ info, d.kv.get (getContractAddressKey caller) = some (.contractInfo info) ∧ info.ibcPortID = q else p = q

/-- A channel as contracts see it. -/
def channelOf (ch : IdentifiedChannel) : IBCChannel where
  endpoint := ⟨ch.portID, ch.channelID⟩
  counterpartyEndpoint := ch.counterparty
  order := ch.ordering.string
  version := ch.version
  connectionID := ch.connectionHops.headD ""

def openOn (chans : List IdentifiedChannel) (q : String) : List IBCChannel :=
  (chans.filter fun ch ↦ ch.state = .opened ∧ ch.portID = q).map channelOf

/-- The request is answered with the open channels of the port, each of them once. -/
def ListsExactly (k : Keeper X) (d : Durable X) (caller : AccAddress) (p q : String) (chans : List IdentifiedChannel) : Prop :=
  ∃ l d', Unmetered (ibcResponse k caller { listChannels := some ⟨p⟩ }) d (.listChannels l) d' ∧ l.Perm (openOn chans q)

/-- No open channel is on a port of a longer name, and all of them have a connection. -/
def PortStandsAlone (chans : List IdentifiedChannel) (q : String) : Prop := ∀ ch ∈ chans, ch.state = .opened →
  if q = "" then ch.portID ≠ "" else q.toList <+: ch.portID.toList → ch.portID = q ∧ ch.connectionHops ≠ []

theorem newIBCChannel_eq_ok {ch : IdentifiedChannel} {c : IBCChannel} :
    newIBCChannel ⟨ch.portID, ch.channelID⟩ ch.toChannel = .ok c ↔ ch.connectionHops ≠ [] ∧ channelOf ch = c := by
  unfold newIBCChannel channelOf
  rcases ch.connectionHops with _ | ⟨hop, hops⟩
  · exact ⟨nofun, fun h ↦ absurd rfl h.1⟩
  · exact ⟨fun h ↦ ⟨nofun, Except.ok.inj h⟩, fun h ↦ congrArg Except.ok h.2⟩

theorem unmetered_requestedPort (hasked : AskedPort d caller p q) : Unmetered (requestedPort k caller p) d q d := by
  unfold AskedPort at hasked
  unfold requestedPort
  split at hasked
  · next hp =>
    obtain ⟨info, hinfo, rfl⟩ := hasked
    rw [if_pos hp]
    exact (Unmetered.getContractInfo hinfo).bind (.pure _ d)
  · next hp =>
    rw [if_neg hp, hasked]
    exact .pure q d

/-- The loop over the channels that were found. -/
theorem convertAll_eq_ok {got : List IdentifiedChannel} {l : List IBCChannel} :
    ((got.filter (·.state = .opened)).mapM fun ch ↦ newIBCChannel ⟨ch.portID, ch.channelID⟩ ch.toChannel) = .ok l ↔
      (∀ ch ∈ got, ch.state = .opened → ch.connectionHops ≠ []) ∧ (got.filter (·.state = .opened)).map channelOf = l := by
  rw [mapM_checked fun ch c ↦ newIBCChannel_eq_ok]
  refine and_congr_left' ⟨fun h ch hch hopen ↦ ?_, fun h ch hch ↦ ?_⟩
  · exact h ch (List.mem_filter.2 ⟨hch, decide_eq_true hopen⟩)
  · obtain ⟨hmem, hopen⟩ := List.mem_filter.1 hch
    exact h ch hmem (of_decide_eq_true hopen)

section Scan

variable {got : List IdentifiedChannel} (hq : q ≠ "")
  (hgot : (k.host.getAllChannelsWithPortPrefix q d.store.ext).result = .ok got)
include hq hgot

theorem unmetered_listChannels (hhops : ∀ ch ∈ got, ch.state = .opened → ch.connectionHops ≠ []) :
    ∃ d', Unmetered (listChannels k q) d ((got.filter (·.state = .opened)).map channelOf) d' := by
  unfold listChannels
  rw [if_neg hq]
  exact ⟨_, (Unmetered.external hgot).bind (.liftPanic (convertAll_eq_ok.2 ⟨hhops, rfl⟩) _)⟩

theorem listChannels_eq_ok {w w' : World X} (hw : durable w = d) (hi : w.meter.infinite = true) {l : List IBCChannel}
    (hrun : listChannels k q w = (.ok l, w')) :
    (∀ ch ∈ got, ch.state = .opened → ch.connectionHops ≠ []) ∧ (got.filter (·.state = .opened)).map channelOf = l := by
  obtain ⟨w₁, hscan, -⟩ := Unmetered.external hgot w hw hi
  unfold listChannels at hrun
  rw [if_neg hq, Program.bind_of_ok _ hscan] at hrun
  exact convertAll_eq_ok.1 (liftPanic_eq_ok.1 hrun).1

end Scan

/-- An open channel the scan shows is on the list of the port only if it is on the port. -/
theorem standsAlone_of_perm {got : List IdentifiedChannel} (hq : q ≠ "")
    (hgot : got.Perm (chans.filter fun ch ↦ q.toList <+: ch.portID.toList))
    (hhops : ∀ ch ∈ got, ch.state = .opened → ch.connectionHops ≠ [])
    (hperm : ((got.filter (·.state = .opened)).map channelOf).Perm (openOn chans q)) : PortStandsAlone chans q := by
  intro ch hch hopen
  rw [if_neg hq]
  intro hprefix
  have hmem : ch ∈ got := hgot.mem_iff.2 (List.mem_filter.2 ⟨hch, decide_eq_true hprefix⟩)
  have hlisted : channelOf ch ∈ openOn chans q :=
    hperm.mem_iff.1 (List.mem_map.2 ⟨ch, List.mem_filter.2 ⟨hmem, decide_eq_true hopen⟩, rfl⟩)
  obtain ⟨ch', hch', heq⟩ := List.mem_map.1 hlisted
  have hport : ch'.portID = q := (of_decide_eq_true (List.mem_filter.1 hch').2).2
  have hsame : ch'.portID = ch.portID := congrArg (·.endpoint.portID) heq
  exact ⟨hsame.symm.trans hport, hhops ch hmem hopen⟩

theorem perm_of_standsAlone {got : List IdentifiedChannel} (hq : q ≠ "")
    (hgot : got.Perm (chans.filter fun ch ↦ q.toList <+: ch.portID.toList)) (h : PortStandsAlone chans q) :
    ((got.filter (·.state = .opened)).map channelOf).Perm (openOn chans q) := by
  refine ((hgot.filter _).trans (.of_eq ?_)).map _
  rw [List.filter_filter]
  refine List.filter_congr fun ch hch ↦ ?_
  by_cases hopen : ch.state = .opened
  · have halone := h ch hch hopen
    rw [if_neg hq] at halone
    have hiff : q.toList <+: ch.portID.toList ↔ ch.portID = q :=
      ⟨fun hprefix ↦ (halone hprefix).1, fun hport ↦ hport ▸ List.prefix_rfl⟩
    simp [hopen, hiff]
  · simp [hopen]

/-- The query lists the open channels of the port just when no other port has a name that starts with this one. -/
theorem channels_listed_iff (hscan : Scans k.host d.store.ext chans) (hasked : AskedPort d caller p q) :
    ListsExactly k d caller p q chans ↔ PortStandsAlone chans q := by
  obtain ⟨got, hresult, hgot⟩ := hscan q
  have hport := unmetered_requestedPort (k := k) hasked
  constructor
  · rintro ⟨l, d', hrun, hperm⟩
    obtain ⟨w₁, hport, hw₁, hi₁⟩ := hport (worldOf d) rfl rfl
    obtain ⟨w', hrun, -⟩ := hrun (worldOf d) rfl rfl
    obtain ⟨l', w₂, hlist, hl⟩ := Program.bind_eq_ok.1 ((Program.bind_of_ok _ hport).symm.trans hrun)
    cases hl
    by_cases hq : q = ""
    · intro ch hch hopen
      rw [if_pos hq]
      rintro hempty
      unfold listChannels at hlist
      rw [if_pos hq] at hlist
      cases hlist
      have hmem : channelOf ch ∈ openOn chans q :=
        List.mem_map.2 ⟨ch, List.mem_filter.2 ⟨hch, decide_eq_true ⟨hopen, hempty.trans hq.symm⟩⟩, rfl⟩
      cases hperm.mem_iff.2 hmem
    · obtain ⟨hhops, rfl⟩ := listChannels_eq_ok hq hresult hw₁ hi₁ hlist
      exact standsAlone_of_perm hq hgot hhops hperm
  · intro halone
    by_cases hq : q = ""
    · have hnone : openOn chans q = [] := by
        unfold openOn
        rw [List.map_eq_nil_iff, List.filter_eq_nil_iff]
        intro ch hch hon
        obtain ⟨hopen, hport⟩ := of_decide_eq_true hon
        have hne := halone ch hch hopen
        rw [if_pos hq] at hne
        exact hne (hport.trans hq)
      have hlist : Unmetered (listChannels k q) d [] d := by
        unfold listChannels
        rw [if_pos hq]
        exact .pure [] d
      exact ⟨[], d, hport.bind (hlist.bind (.pure _ d)), hnone ▸ .refl _⟩
    · have hhops : ∀ ch ∈ got, ch.state = .opened → ch.connectionHops ≠ [] := by
        intro ch hch hopen
        obtain ⟨hmem, hprefix⟩ := List.mem_filter.1 (hgot.mem_iff.1 hch)
        have h := halone ch hmem hopen
        rw [if_neg hq] at h
        exact (h (of_decide_eq_true hprefix)).2
      obtain ⟨d', hlist⟩ := unmetered_listChannels hq hresult hhops
      exact ⟨_, d', hport.bind (hlist.bind (.pure _ d')), perm_of_standsAlone hq hgot halone⟩

/-- A channel on the port that is open. -/
def openChannelOn (portID channelID : String) : IdentifiedChannel where
  state := .opened
  ordering := .unordered
  counterparty := ⟨"transfer", channelID⟩
  connectionHops := ["connection-0"]
  version := "ics20-1"
  portID := portID
  channelID := channelID

def harborChannels : List IdentifiedChannel := [openChannelOn "transfer" "channel-0", openChannelOn "transfer2" "channel-1"]

/-- A chain with these two channels. -/
def harbornet : Keeper Unit :=
  { devnet idleContract with
    host := { emptyHost with
      getAllChannelsWithPortPrefix := fun p ↦ .idle (harborChannels.filter fun ch ↦ p.toList <+: ch.portID.toList) } }

theorem channels_listed_iff_harbornet :
    ListsExactly harbornet (emptyDurable ()) [1] "transfer2" "transfer2" harborChannels := by
  have hscan : Scans harbornet.host () harborChannels := fun p ↦ ⟨_, rfl, .refl _⟩
  have hasked : AskedPort (emptyDurable ()) [1] "transfer2" "transfer2" := by
    unfold AskedPort
    rw [if_neg (by decide)]
  refine (channels_listed_iff (k := harbornet) hscan hasked).2 fun ch hch _ ↦ ?_
  rw [if_neg (by decide)]
  rcases List.mem_cons.1 hch with rfl | hch
  · exact fun h ↦ absurd h (by decide)
  · rw [List.mem_singleton.1 hch]
    exact fun _ ↦ ⟨rfl, nofun⟩

/-- The list of the port `transfer` has the channel of `transfer2` on it. -/
theorem transfer_lists_transfer2 :
    (ibcResponse harbornet [1] { listChannels := some ⟨"transfer"⟩ } emptyWorld).1 =
      .ok (.listChannels [channelOf (openChannelOn "transfer" "channel-0"), channelOf (openChannelOn "transfer2" "channel-1")]) ∧
    openOn harborChannels "transfer" = [channelOf (openChannelOn "transfer" "channel-0")] := by
  decide +kernel

end Channels

end Cosmwasgo.Properties
