import Webshell.Base64
import Webshell.GoBytes
import Webshell.Machine
import Webshell.OrderedMap

/-!
# Tunnel tickets

A ticket is a signed payload. `authorize` reads it and keeps nothing; `consume`
keeps its nonce until it expires. Requests arrive in any order and wait as long
as they like between the two.
-/

namespace Webshell

open GoBytes

def ticketBytes (text : String) : Str := text.toList.map fun c => UInt8.ofNat c.toNat

/-! ## Encodings -/

def urlAlphabet : Str := ticketBytes "ABCDEFGHIJKLMNOPQRSTUVWXYZabcdefghijklmnopqrstuvwxyz0123456789-_"

def urlValue (b : UInt8) : Option Nat := urlAlphabet.findIdx? (· = b)

/-- `base64.RawURLEncoding.DecodeString`, which skips ends of lines. -/
def rawURLDecode (s : Str) : Option Str := ((s.filter fun b => b ≠ 10 ∧ b ≠ 13).mapM urlValue).bind Base64.octets

def isHexByte (b : UInt8) : Bool :=
  48 ≤ b.toNat && b.toNat ≤ 57 || 97 ≤ b.toNat && b.toNat ≤ 102 || 65 ≤ b.toNat && b.toNat ≤ 70

/-- The length of what `hex.DecodeString` reads. -/
def hexLength (s : Str) : Option Nat := if s.all isHexByte ∧ s.length % 2 = 0 then some (s.length / 2) else none

/-! ## Tickets -/

structure TicketConfig where
  Credential : Str
  InstanceID : Str
  AccountID : Str
  BoxID : Str
  DeviceID : Str
  Epoch : Str

/-- The headers of a request; one that is missing is empty. -/
structure SSHRequest where
  credential : Str
  box : Str
  ticket : Str
  protocols : List Str
  origin : Str
  upgrade : Bool
  deriving DecidableEq

structure TicketGrant where
  revision : Nat
  expires : Int
  nonce : Str
  bodyHash : Str
  deriving DecidableEq

/-- What a token says and how it is signed. -/
def ticketParts (token : Str) : Option (Str × Str) :=
  match token.splitOn dot with
  | [payload, signature] =>
    match rawURLDecode payload, rawURLDecode signature with
    | some payload, some signature => some (payload, signature)
    | _, _ => none
  | _ => none

def validBodyHash (purpose bodyHash : Str) : Bool :=
  if purpose = ticketBytes "ssh-config" then hexLength bodyHash = some 32 else bodyHash = ticketBytes "-"

/-- What is read of a payload whose first lines are as they should be. -/
def ticketGrant (purpose : Str) (now : Int) (revision expires nonce bodyHash : Str) : Option TicketGrant :=
  match parseUintBase 10 64 revision, parseInt64 expires, rawURLDecode nonce with
  | some revision, some expires, some bytes =>
    if purpose ≠ ticketBytes "ssh-status" ∧ revision = 0 then none
    else if expires ≤ now ∨ now + 90 < expires then none
    else if bytes.length ≠ 32 then none
    else if validBodyHash purpose bodyHash then some ⟨revision, expires, nonce, bodyHash⟩
    else none
  | _, _, _ => none

def ticketFields (config : TicketConfig) (purpose : Str) (now : Int) (payload : Str) : Option TicketGrant :=
  match payload.splitOn 10 with
  | [version, use, instanceID, account, box, device, epoch, revision, expires, nonce, bodyHash] =>
    if version = ticketBytes "lightos-client-ssh-v1" ∧ use = purpose ∧ instanceID = config.InstanceID ∧
        account = config.AccountID ∧ box = config.BoxID ∧ device = config.DeviceID ∧ epoch = config.Epoch then
      ticketGrant purpose now revision expires nonce bodyHash
    else none
  | _ => none

/-- `mac` is the HMAC with the configured secret. -/
def authorize (mac : Str → Str) (config : TicketConfig) (now : Int) (purpose : Str) (r : SSHRequest) :
    Option TicketGrant :=
  if r.credential ≠ config.Credential ∨ r.box ≠ config.BoxID then none
  else if r.ticket.length = 0 ∨ 4096 < r.ticket.length then none
  else
    match ticketParts r.ticket with
    | none => none
    | some (payload, signature) => if signature ≠ mac payload then none else ticketFields config purpose now payload

/-! ## The handler -/

def maxTickets : Nat := 256

/-- Whether the ticket is taken, and the nonces in use then. -/
def consume (used : OrderedMap Str Int) (grant : TicketGrant) (now : Int) : Bool × OrderedMap Str Int :=
  let used := used.retain (now < ·)
  if used.has grant.nonce ∨ maxTickets ≤ used.size ∨ grant.expires ≤ now then (false, used)
  else (true, used.set grant.nonce grant.expires)

/-- `arriving` are the requests between `authorize` and `consume`, `accepted` those whose tickets were taken. -/
structure ManagedHandler where
  now : Int
  used : OrderedMap Str Int := ∅
  arriving : List (SSHRequest × TicketGrant) := []
  accepted : List (SSHRequest × TicketGrant) := []

namespace ManagedHandler

def tunnelPurpose : Str := ticketBytes "ssh-tunnel"

def tunnelProtocol : Str := ticketBytes "lightos-client-ssh.v1"

/-- `ServeHTTP`, for a tunnel. -/
def serveTunnel (mac : Str → Str) (config : TicketConfig) (h : ManagedHandler) (r : SSHRequest) (stopped unavailable : Bool) :
    ManagedHandler :=
  match authorize mac config h.now tunnelPurpose r with
  | none => h
  | some grant => if stopped || unavailable then h else { h with arriving := h.arriving ++ [(r, grant)] }

local instance lawfulProtocols : LawfulBEq Str := inferInstance

/-- `tunnel`, up to the upgrade; the server's status is `enabled` and `revision`. -/
def tunnel (h : ManagedHandler) (r : SSHRequest) (grant : TicketGrant) (enabled : Bool) (revision : Nat) : ManagedHandler :=
  if tunnelProtocol ∉ r.protocols ∨ r.origin ≠ [] ∨ r.upgrade = false then h
  else if enabled = false ∨ revision ≠ grant.revision then h
  else
    let (taken, used) := consume h.used grant h.now
    { h with used := used, accepted := if taken then h.accepted ++ [(r, grant)] else h.accepted }

end ManagedHandler

inductive TunnelEvent
  | tick (now : Int)
  | request (r : SSHRequest) (stopped unavailable : Bool)
  | tunnel (i : Nat) (enabled : Bool) (revision : Nat)

def tunnelMachine (mac : Str → Str) (config : TicketConfig) : Machine ManagedHandler TunnelEvent where
  step h
    | .tick now => if now < h.now then none else some { h with now := now }
    | .request r stopped unavailable => some (h.serveTunnel mac config r stopped unavailable)
    | .tunnel i enabled revision =>
      match h.arriving[i]? with
      | none => none
      | some (r, grant) => some (({ h with arriving := h.arriving.eraseIdx i } : ManagedHandler).tunnel r grant enabled revision)

/-! ## The payload says it all -/

section Authorize

variable {mac : Str → Str} {config : TicketConfig} {now now' : Int} {purpose : Str} {r r' : SSHRequest} {grant grant' : TicketGrant}

def signedPayload (r : SSHRequest) : Option Str := (ticketParts r.ticket).map (·.1)

theorem authorize_fields (h : authorize mac config now purpose r = some grant) :
    ∃ payload, signedPayload r = some payload ∧ ticketFields config purpose now payload = some grant := by
  unfold authorize at h
  split at h
  · cases h
  · split at h
    · cases h
    · cases hp : ticketParts r.ticket with
      | none =>
        rw [hp] at h
        cases h
      | some parts =>
        obtain ⟨payload, signature⟩ := parts
        rw [hp] at h
        simp only at h
        split at h
        · cases h
        · exact ⟨payload, by rw [signedPayload, hp]; rfl, h⟩

theorem ticketGrant_read {revision expires nonce bodyHash : Str}
    (h : ticketGrant purpose now revision expires nonce bodyHash = some grant) :
    grant.nonce = nonce ∧ parseInt64 expires = some grant.expires := by
  unfold ticketGrant at h
  split at h
  · rename_i hexpires _
    split at h
    · cases h
    · split at h
      · cases h
      · split at h
        · cases h
        · split at h
          · cases h
            exact ⟨rfl, hexpires⟩
          · cases h
  · cases h

theorem ticketFields_read {payload : Str} (h : ticketFields config purpose now payload = some grant)
    (h' : ticketFields config purpose now' payload = some grant') :
    grant.nonce = grant'.nonce ∧ grant.expires = grant'.expires := by
  unfold ticketFields at h h'
  split at h
  · rename_i hlines
    rw [hlines] at h'
    simp only at h'
    split at h
    · rename_i hfirst
      rw [if_pos hfirst] at h'
      obtain ⟨hn, he⟩ := ticketGrant_read h
      obtain ⟨hn', he'⟩ := ticketGrant_read h'
      refine ⟨hn.trans hn'.symm, ?_⟩
      rw [he] at he'
      exact Option.some.inj he'
    · cases h
  · cases h

/-- Tickets with one payload have one nonce and one expiry, whenever they are read. -/
theorem authorize_same (h : authorize mac config now purpose r = some grant)
    (h' : authorize mac config now' purpose r' = some grant') (hp : signedPayload r = signedPayload r') :
    grant.nonce = grant'.nonce ∧ grant.expires = grant'.expires := by
  obtain ⟨payload, hr, hg⟩ := authorize_fields h
  obtain ⟨payload', hr', hg'⟩ := authorize_fields h'
  rw [hr, hr'] at hp
  cases hp
  exact ticketFields_read hg hg'

end Authorize

/-! ## Nonces in use -/

section Runs

variable {mac : Str → Str} {config : TicketConfig} {h h' : ManagedHandler}

structure TicketInv (mac : Str → Str) (config : TicketConfig) (h : ManagedHandler) : Prop where
  arriving : ∀ a ∈ h.arriving, ∃ t, authorize mac config t ManagedHandler.tunnelPurpose a.1 = some a.2
  accepted : ∀ a ∈ h.accepted, ∃ t, authorize mac config t ManagedHandler.tunnelPurpose a.1 = some a.2
  held : ∀ nonce expires, h.used.get nonce = some expires → ∃ a ∈ h.accepted, a.2.nonce = nonce ∧ a.2.expires = expires
  kept : ∀ a ∈ h.accepted, h.now < a.2.expires → h.used.get a.2.nonce = some a.2.expires
  once : (h.accepted.map fun a => signedPayload a.1).Nodup
  bounded : h.used.size ≤ maxTickets

/-- What has not expired. -/
theorem get_unexpired (hi : TicketInv mac config h) (nonce : Str) (expires : Int) :
    (h.used.retain (h.now < ·)).get nonce = some expires ↔
      h.now < expires ∧ ∃ a ∈ h.accepted, a.2.nonce = nonce ∧ a.2.expires = expires := by
  rw [OrderedMap.get_retain, Option.filter_eq_some_iff]
  constructor
  · rintro ⟨hget, hlt⟩
    exact ⟨of_decide_eq_true hlt, hi.held nonce expires hget⟩
  · rintro ⟨hlt, a, ha, rfl, rfl⟩
    exact ⟨hi.kept a ha hlt, decide_eq_true hlt⟩

theorem has_iff {m : OrderedMap Str Int} {nonce : Str} : m.has nonce = true ↔ ∃ expires, m.get nonce = some expires := by
  unfold OrderedMap.has
  exact Option.isSome_iff_exists

/-- A ticket is refused, or taken when none of the reasons holds. -/
theorem consume_cases (used : OrderedMap Str Int) (grant : TicketGrant) (now : Int) :
    let held := used.retain (now < ·)
    (consume used grant now = (false, held) ∧ (held.has grant.nonce = true ∨ maxTickets ≤ held.size ∨ grant.expires ≤ now)) ∨
      (consume used grant now = (true, held.set grant.nonce grant.expires) ∧ held.get grant.nonce = none ∧
        held.size < maxTickets ∧ now < grant.expires) := by
  intro held
  unfold consume
  by_cases hrefused : held.has grant.nonce = true ∨ maxTickets ≤ held.size ∨ grant.expires ≤ now
  · exact .inl ⟨if_pos hrefused, hrefused⟩
  · refine .inr ⟨if_neg hrefused, ?_⟩
    rw [not_or, not_or, Nat.not_le, Int.not_le] at hrefused
    refine ⟨?_, hrefused.2⟩
    simpa [OrderedMap.has] using hrefused.1

/-- What has been accepted when a ticket has been tried. -/
def acceptedAfter (h : ManagedHandler) (a : SSHRequest × TicketGrant) : List (SSHRequest × TicketGrant) :=
  if (consume h.used a.2 h.now).1 then h.accepted ++ [a] else h.accepted

/-- The nonces in use are those that were accepted and have not expired. -/
structure TicketConsumed (h : ManagedHandler) (a : SSHRequest × TicketGrant) : Prop where
  exact : ∀ nonce, (consume h.used a.2 h.now).2.has nonce = true ↔
    ∃ b ∈ acceptedAfter h a, b.2.nonce = nonce ∧ h.now < b.2.expires
  bounded : (consume h.used a.2 h.now).2.size ≤ maxTickets
  refused : (consume h.used a.2 h.now).1 = false →
    (∃ b ∈ h.accepted, b.2.nonce = a.2.nonce) ∨ a.2.expires ≤ h.now ∨ maxTickets ≤ (h.used.retain (h.now < ·)).size

theorem has_unexpired (hi : TicketInv mac config h) (nonce : Str) :
    (h.used.retain (h.now < ·)).has nonce = true ↔ ∃ b ∈ h.accepted, b.2.nonce = nonce ∧ h.now < b.2.expires := by
  rw [has_iff]
  constructor
  · rintro ⟨expires, hget⟩
    obtain ⟨hlt, b, hb, hn, rfl⟩ := (get_unexpired hi nonce expires).mp hget
    exact ⟨b, hb, hn, hlt⟩
  · rintro ⟨b, hb, hn, hlt⟩
    exact ⟨b.2.expires, (get_unexpired hi nonce _).mpr ⟨hlt, b, hb, hn, rfl⟩⟩

theorem consumed (hi : TicketInv mac config h) (a : SSHRequest × TicketGrant) : TicketConsumed h a := by
  have hretain := Nat.le_trans (OrderedMap.size_retain_le h.used (h.now < ·)) hi.bounded
  rcases consume_cases h.used a.2 h.now with ⟨he, hwhy⟩ | ⟨he, hnew, hroom, hlt⟩
  · refine ⟨fun nonce => ?_, ?_, fun _ => ?_⟩
    · unfold acceptedAfter
      rw [he]
      exact has_unexpired hi nonce
    · rw [he]
      exact hretain
    · rcases hwhy with hused | hfull | hexpired
      · obtain ⟨b, hb, hn, -⟩ := (has_unexpired hi _).mp hused
        exact .inl ⟨b, hb, hn⟩
      · exact .inr (.inr hfull)
      · exact .inr (.inl hexpired)
  · refine ⟨fun nonce => ?_, ?_, fun hf => ?_⟩
    · unfold acceptedAfter
      rw [he]
      simp only [if_true]
      rw [has_iff]
      by_cases hn : nonce = a.2.nonce
      · rw [hn, OrderedMap.get_set]
        exact ⟨fun _ => ⟨a, by simp, rfl, hlt⟩, fun _ => ⟨_, rfl⟩⟩
      · rw [OrderedMap.get_set_of_ne _ hn, ← has_iff, has_unexpired hi]
        constructor
        · rintro ⟨b, hb, hb'⟩
          exact ⟨b, List.mem_append_left _ hb, hb'⟩
        · rintro ⟨b, hb, hbn, hb'⟩
          rcases List.mem_append.mp hb with hb | hb
          · exact ⟨b, hb, hbn, hb'⟩
          · rw [List.mem_singleton.mp hb] at hbn
            exact absurd hbn.symm hn
    · rw [he]
      simp only
      rw [OrderedMap.size_set, hnew]
      exact hroom
    · rw [he] at hf
      cases hf

/-! ## Runs -/

namespace TicketInv

theorem frame (hi : TicketInv mac config h) (hnow : h'.now = h.now) (hu : h'.used = h.used)
    (hacc : h'.accepted = h.accepted)
    (harr : ∀ a ∈ h'.arriving, ∃ t, authorize mac config t ManagedHandler.tunnelPurpose a.1 = some a.2) :
    TicketInv mac config h' where
  arriving := harr
  accepted := by
    rw [hacc]
    exact hi.accepted
  held := by
    rw [hacc, hu]
    exact hi.held
  kept := by
    rw [hacc, hu, hnow]
    exact hi.kept
  once := by
    rw [hacc]
    exact hi.once
  bounded := by
    rw [hu]
    exact hi.bounded

/-- A ticket is tried that `authorize` has let through. -/
theorem tried (hi : TicketInv mac config h) {a : SSHRequest × TicketGrant} {t : Int}
    (ha : authorize mac config t ManagedHandler.tunnelPurpose a.1 = some a.2) :
    TicketInv mac config { h with used := (consume h.used a.2 h.now).2, accepted := acceptedAfter h a } := by
  have hbounded := (consumed hi a).bounded
  unfold acceptedAfter
  rcases consume_cases h.used a.2 h.now with ⟨he, -⟩ | ⟨he, hnew, -, hlt⟩
  · rw [he] at hbounded ⊢
    refine ⟨hi.arriving, hi.accepted, fun nonce expires hget => ?_, fun b hb hlt => ?_, hi.once, hbounded⟩
    · exact ((get_unexpired hi nonce expires).mp hget).2
    · exact (get_unexpired hi _ _).mpr ⟨hlt, b, hb, rfl, rfl⟩
  · rw [he] at hbounded ⊢
    -- A ticket with the same payload would still be in use.
    have hfresh : ∀ b ∈ h.accepted, h.now < b.2.expires → b.2.nonce ≠ a.2.nonce := by
      intro b hb hb' hn
      have hget := (get_unexpired hi b.2.nonce b.2.expires).mpr ⟨hb', b, hb, rfl, rfl⟩
      rw [hn, hnew] at hget
      cases hget
    simp only [if_true]
    refine ⟨hi.arriving, fun b hb => ?_, fun nonce expires hget => ?_, fun b hb hb' => ?_, ?_, hbounded⟩
    · rcases List.mem_append.mp hb with hb | hb
      · exact hi.accepted b hb
      · rw [List.mem_singleton.mp hb]
        exact ⟨t, ha⟩
    · by_cases hn : nonce = a.2.nonce
      · rw [hn, OrderedMap.get_set] at hget
        cases hget
        exact ⟨a, by simp, hn.symm, rfl⟩
      · rw [OrderedMap.get_set_of_ne _ hn] at hget
        obtain ⟨-, b, hb, hb'⟩ := (get_unexpired hi nonce expires).mp hget
        exact ⟨b, List.mem_append_left _ hb, hb'⟩
    · rcases List.mem_append.mp hb with hb | hb
      · rw [OrderedMap.get_set_of_ne _ (hfresh b hb hb')]
        exact (get_unexpired hi _ _).mpr ⟨hb', b, hb, rfl, rfl⟩
      · rw [List.mem_singleton.mp hb]
        exact OrderedMap.get_set _
    · rw [List.map_append, List.map_singleton, List.nodup_append]
      refine ⟨hi.once, List.nodup_singleton _, ?_⟩
      intro p hp q hq heq
      rw [List.mem_singleton] at hq
      obtain ⟨b, hb, rfl⟩ := List.mem_map.mp hp
      obtain ⟨t', hb'⟩ := hi.accepted b hb
      obtain ⟨hn, hexpires⟩ := authorize_same hb' ha (heq.trans hq)
      exact hfresh b hb (hexpires ▸ hlt) hn

theorem tunnel (hi : TicketInv mac config h) {r : SSHRequest} {grant : TicketGrant} {t : Int}
    (ha : authorize mac config t ManagedHandler.tunnelPurpose r = some grant) (enabled : Bool) (revision : Nat) :
    TicketInv mac config (h.tunnel r grant enabled revision) := by
  unfold ManagedHandler.tunnel
  split
  · exact hi
  · split
    · exact hi
    · exact tried hi (a := (r, grant)) ha

theorem step (hi : TicketInv mac config h) {e : TunnelEvent} (hs : (tunnelMachine mac config).step h e = some h') :
    TicketInv mac config h' := by
  cases e with
  | tick now =>
    simp only [tunnelMachine] at hs
    split at hs
    · cases hs
    · rename_i hnow
      cases hs
      exact ⟨hi.arriving, hi.accepted, hi.held, fun b hb hlt => hi.kept b hb (by simp only at hlt; omega), hi.once, hi.bounded⟩
  | request r stopped unavailable =>
    cases hs
    unfold ManagedHandler.serveTunnel
    cases ha : authorize mac config h.now ManagedHandler.tunnelPurpose r with
    | none => exact hi
    | some grant =>
      simp only
      split
      · exact hi
      · refine hi.frame rfl rfl rfl fun b hb => ?_
        rcases List.mem_append.mp hb with hb | hb
        · exact hi.arriving b hb
        · rw [List.mem_singleton.mp hb]
          exact ⟨h.now, ha⟩
  | tunnel i enabled revision =>
    simp only [tunnelMachine] at hs
    cases ha : h.arriving[i]? with
    | none =>
      rw [ha] at hs
      cases hs
    | some a =>
      obtain ⟨r, grant⟩ := a
      rw [ha] at hs
      cases hs
      obtain ⟨t, ht⟩ := hi.arriving _ (List.mem_of_getElem? ha)
      apply TicketInv.tunnel _ ht
      exact hi.frame rfl rfl rfl fun b hb => hi.arriving b (List.mem_of_mem_eraseIdx hb)

theorem start (now : Int) : TicketInv mac config { now := now } where
  arriving := fun _ hm => absurd hm List.not_mem_nil
  accepted := fun _ hm => absurd hm List.not_mem_nil
  held := nofun
  kept := fun _ hm => absurd hm List.not_mem_nil
  once := List.nodup_nil
  bounded := Nat.zero_le _

end TicketInv

/-- Of the requests with one payload at most one is let in, and whoever is let in or refused, the nonces in use are
those of the tickets that were taken and have not expired. -/
theorem tunnel_tickets {now : Int} {es : List TunnelEvent} (hr : (tunnelMachine mac config).run { now := now } es = some h) :
    (h.accepted.map fun a => signedPayload a.1).Nodup ∧ h.used.size ≤ maxTickets ∧ ∀ a ∈ h.arriving, TicketConsumed h a := by
  have hi := (tunnelMachine mac config).run_inv (fun _ _ _ hi hs => TicketInv.step hi hs) hr (TicketInv.start now)
  exact ⟨hi.once, hi.bounded, fun a _ => consumed hi a⟩

end Runs

/-- The ticket of a payload, for a key whose codes are empty. -/
def unsignedTicket (payload : Str) : Str := (Base64.sextets payload).map (urlAlphabet.getD · 0) ++ [dot]

def ticketConfigOfOne : TicketConfig := ⟨[99], [105], [97], [98], [100], [101]⟩

/-- It expires at second 50; its nonce is 32 zeros. -/
def requestOfOne : SSHRequest where
  credential := [99]
  box := [98]
  ticket := unsignedTicket (ticketBytes "lightos-client-ssh-v1\nssh-tunnel\ni\na\nb\nd\ne\n1\n50\n" ++
    List.replicate 43 65 ++ ticketBytes "\n-")
  protocols := [ManagedHandler.tunnelProtocol]
  origin := []
  upgrade := true

/-- Three requests with one ticket, two of which have been tried. -/
def ticketEvents : List TunnelEvent :=
  [.request requestOfOne false false, .request requestOfOne false false, .tunnel 0 true 1,
    .request requestOfOne false false, .tick 49, .tunnel 0 true 1]

theorem tunnel_tickets_once : ∃ h, (tunnelMachine (fun _ => []) ticketConfigOfOne).run { now := 10 } ticketEvents = some h ∧
    h.accepted.length = 1 ∧ h.arriving.length = 1 ∧ ∀ a ∈ h.arriving, TicketConsumed h a := by
  have hcounts : ((tunnelMachine (fun _ => []) ticketConfigOfOne).run { now := 10 } ticketEvents).map
      (fun h => (h.accepted.length, h.arriving.length)) = some (1, 1) := by
    decide +kernel
  obtain ⟨h, hr, hlengths⟩ := Option.map_eq_some_iff.mp hcounts
  rw [Prod.mk.injEq] at hlengths
  exact ⟨h, hr, hlengths.1, hlengths.2, (tunnel_tickets hr).2.2⟩

end Webshell
