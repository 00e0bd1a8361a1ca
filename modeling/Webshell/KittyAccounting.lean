import Webshell.KittyGraphics

/-!
# What images take up

The counters of the image cache are sums over what is in it, whatever order
streams, decodes, resets and deletions come in. Every decoded image is in the
cache or has been given back once.
-/

namespace Webshell

/-! ## The parts of the books -/

def transferSize (transfer : KittyTransfer) : Int := transfer.chars

/-- Whether the image is the one that decode `x` brought. -/
def isImage (x : Nat) (image : KittyImage) : Int := if image.id = x then 1 else 0

structure TransfersAccounted (transfers : OrderedMap Rat KittyTransfer) (chars : Int) : Prop where
  sum : chars = transfers.weight transferSize
  most : chars ≤ KITTY_MAX_TRANSFER_CHARS
  few : transfers.size ≤ KITTY_MAX_TRANSFERS

structure ImagesAccounted (images : OrderedMap Rat KittyImage) (bytes : Int) (decoded released : List Nat) : Prop where
  sum : bytes = images.weight imageByteSize
  most : bytes ≤ KITTY_MAX_IMAGE_BYTES
  few : images.size ≤ KITTY_MAX_IMAGES
  once : decoded.Nodup
  kept : ∀ x, images.weight (isImage x) + released.count x = decoded.count x

def Consuming.isMoving : Consuming → Bool
  | .moving .. => true
  | _ => false

structure DecodesAccounted (consuming : Consuming) (decodes : List KittyDecode) (active : Int) (promises : Nat)
    (decoded : List Nat) : Prop where
  sum : active = decodes.length
  most : active ≤ KITTY_MAX_DECODES
  room : consuming.isMoving = true → active < KITTY_MAX_DECODES
  begun : ∀ d ∈ decodes, d.promise < promises
  ended : ∀ x ∈ decoded, x < promises
  distinct : (decodes.map KittyDecode.promise).Nodup
  unsettled : ∀ d ∈ decodes, d.settled = false → d.promise ∉ decoded

structure KittyAccounted (g : KittyGraphics) : Prop where
  transfers : TransfersAccounted g.transfers g.transferChars
  images : ImagesAccounted g.images g.imageBytes g.decoded g.released
  placements : g.placements.size ≤ KITTY_MAX_PLACEMENTS
  decodes : DecodesAccounted g.consuming g.decodes g.activeDecodes g.promises g.decoded

/-! ## Transfers -/

theorem weightAt_transferSize (transfers : OrderedMap Rat KittyTransfer) (k : Rat) :
    transfers.weightAt k transferSize = (((transfers.get k).map KittyTransfer.chars).getD 0 : Nat) := by
  unfold OrderedMap.weightAt
  cases transfers.get k with
  | none => rfl
  | some transfer => rfl

theorem weightAt_transferSize_nonneg (transfers : OrderedMap Rat KittyTransfer) (k : Rat) :
    0 ≤ transfers.weightAt k transferSize := by
  rw [weightAt_transferSize]
  exact Int.natCast_nonneg _

namespace TransfersAccounted

variable {transfers : OrderedMap Rat KittyTransfer} {chars : Int} (h : TransfersAccounted transfers chars)

theorem cleared : TransfersAccounted ∅ 0 := ⟨rfl, by decide, by decide⟩

include h

theorem delete (k : Rat) : TransfersAccounted (transfers.delete k) (chars - transfers.weightAt k transferSize) := by
  refine ⟨?_, ?_, Nat.le_trans (transfers.size_delete_le k) h.few⟩
  · rw [transfers.weight_delete, h.sum]
  · have := weightAt_transferSize_nonneg transfers k
    have := h.most
    omega

theorem set (k : Rat) (transfer : KittyTransfer) (hroom : transfers.size < KITTY_MAX_TRANSFERS ∨ (transfers.get k).isSome = true)
    (hmost : chars - transfers.weightAt k transferSize + transfer.chars ≤ KITTY_MAX_TRANSFER_CHARS) :
    TransfersAccounted (transfers.set k transfer) (chars - transfers.weightAt k transferSize + transfer.chars) := by
  refine ⟨?_, hmost, ?_⟩
  · rw [transfers.weight_set, h.sum]
    rfl
  · rw [transfers.size_set]
    split
    · exact h.few
    · rename_i hnone
      have := hroom.resolve_right hnone
      omega

end TransfersAccounted

/-! ## Images -/

theorem imageByteSize_nonneg (image : KittyImage) : 0 ≤ imageByteSize image := by
  unfold imageByteSize
  positivity

theorem isImage_count (x : Nat) (image : KittyImage) : isImage x image = ([image.id].count x : Nat) := by
  unfold isImage
  rw [List.count_singleton]
  by_cases hx : image.id = x
  · simp [hx]
  · simp [hx]

theorem weight_isImage (images : OrderedMap Rat KittyImage) (x : Nat) :
    images.weight (isImage x) = (images.values.map KittyImage.id).count x := by
  unfold OrderedMap.weight
  induction images.values with
  | nil => rfl
  | cons image values ih =>
    rw [List.map_cons, List.sum_cons, List.map_cons, List.count_cons, ih, isImage_count, List.count_singleton]
    omega

namespace ImagesAccounted

variable {images : OrderedMap Rat KittyImage} {bytes : Int} {decoded released : List Nat}
  (h : ImagesAccounted images bytes decoded released)

include h

/-- All images are given back. -/
theorem cleared : ImagesAccounted ∅ 0 decoded (released ++ images.values.map KittyImage.id) := by
  refine ⟨rfl, by decide, by decide, h.once, fun x => ?_⟩
  have hx := h.kept x
  rw [weight_isImage] at hx
  rw [OrderedMap.weight_empty, List.count_append]
  omega

theorem deleteNone {k : Rat} (hk : images.get k = none) : ImagesAccounted (images.delete k) bytes decoded released := by
  refine ⟨?_, h.most, Nat.le_trans (images.size_delete_le k) h.few, h.once, fun x => ?_⟩
  · rw [images.weight_delete, images.weightAt_none k _ hk, h.sum, Int.sub_zero]
  · rw [images.weight_delete, images.weightAt_none k _ hk, Int.sub_zero]
    exact h.kept x

theorem deleteSome {k : Rat} {image : KittyImage} (hk : images.get k = some image) :
    ImagesAccounted (images.delete k) (bytes - imageByteSize image) decoded (released ++ [image.id]) := by
  refine ⟨?_, ?_, Nat.le_trans (images.size_delete_le k) h.few, h.once, fun x => ?_⟩
  · rw [images.weight_delete, images.weightAt_some k _ hk, h.sum]
  · have := imageByteSize_nonneg image
    have := h.most
    omega
  · have hx := h.kept x
    rw [images.weight_delete, images.weightAt_some k _ hk, List.count_append, isImage_count]
    omega

/-- An image that is decoded and given back at once. -/
theorem discarded {x : Nat} (hx : x ∉ decoded) : ImagesAccounted images bytes (decoded ++ [x]) (released ++ [x]) := by
  refine ⟨h.sum, h.most, h.few, ?_, fun y => ?_⟩
  · exact List.nodup_append.mpr ⟨h.once, List.nodup_singleton x, fun a ha b hb hab => hx (by simp_all)⟩
  · have hy := h.kept y
    simp only [List.count_append]
    omega

/-- An image that takes the place of the one at its key, or a new place. -/
theorem stored (k : Rat) (image : KittyImage) (hx : image.id ∉ decoded)
    (hmost : bytes - images.weightAt k imageByteSize + imageByteSize image ≤ KITTY_MAX_IMAGE_BYTES)
    (hroom : images.size < KITTY_MAX_IMAGES ∨ (images.get k).isSome = true) :
    ImagesAccounted (images.set k image) (bytes - images.weightAt k imageByteSize + imageByteSize image)
      (decoded ++ [image.id]) (released ++ ((images.get k).map KittyImage.id).toList) := by
  refine ⟨?_, hmost, ?_, ?_, fun y => ?_⟩
  · rw [images.weight_set, h.sum]
  · rw [images.size_set]
    split
    · exact h.few
    · rename_i hnone
      have := hroom.resolve_right hnone
      omega
  · exact List.nodup_append.mpr ⟨h.once, List.nodup_singleton _, fun a ha b hb hab => hx (by simp_all)⟩
  · have hy := h.kept y
    rw [images.weight_set, List.count_append, List.count_append, isImage_count]
    cases hk : images.get k with
    | none =>
      rw [images.weightAt_none k _ hk, Option.map_none, Option.toList_none, List.count_nil]
      omega
    | some old =>
      rw [images.weightAt_some k _ hk, isImage_count, Option.map_some, Option.toList_some]
      omega

end ImagesAccounted

/-! ## Decodes -/

theorem length_filter_ne {α β : Type} [DecidableEq β] (f : α → β) {a : α} : ∀ {l : List α}, (l.map f).Nodup → a ∈ l →
    (l.filter fun b => f b ≠ f a).length + 1 = l.length
  | b :: l, hn, ha => by
    rw [List.map_cons, List.nodup_cons] at hn
    rcases List.mem_cons.mp ha with rfl | ha
    · have hall : l.filter (fun b => f b ≠ f a) = l := by
        apply List.filter_eq_self.mpr
        intro b hb
        apply decide_eq_true
        intro he
        exact hn.1 (he ▸ List.mem_map_of_mem hb)
      rw [List.filter_cons_of_neg (by simp), hall, List.length_cons]
    · have hne : f b ≠ f a := fun he => hn.1 (he ▸ List.mem_map_of_mem ha)
      rw [List.filter_cons_of_pos (by simpa using hne), List.length_cons, List.length_cons, length_filter_ne f hn.2 ha]

namespace DecodesAccounted

variable {consuming : Consuming} {decodes : List KittyDecode} {active : Int} {promises : Nat} {decoded : List Nat}
  (h : DecodesAccounted consuming decodes active promises decoded)

include h

/-- The call goes on to where nothing is moving. -/
theorem settled {consuming' : Consuming} (hc : consuming'.isMoving = false) :
    DecodesAccounted consuming' decodes active promises decoded :=
  { h with room := fun hm => absurd (hc.symm.trans hm) (by decide) }

theorem started {d : KittyDecode} (hd : d.promise = promises) (hroom : active < KITTY_MAX_DECODES)
    (hc : consuming.isMoving = false) :
    DecodesAccounted consuming (decodes ++ [d]) (active + 1) (promises + 1) decoded where
  sum := by
    rw [h.sum, List.length_append]
    rfl
  most := by omega
  room hm := absurd (hc.symm.trans hm) (by decide)
  begun e he := by
    rcases List.mem_append.mp he with he | he
    · exact Nat.lt_succ_of_lt (h.begun e he)
    · rw [List.mem_singleton.mp he, hd]
      exact Nat.lt_succ_self _
  ended x hx := Nat.lt_succ_of_lt (h.ended x hx)
  distinct := by
    rw [List.map_append, List.nodup_append]
    refine ⟨h.distinct, List.nodup_singleton _, fun x hx y hy => ?_⟩
    obtain ⟨e, he, rfl⟩ := List.mem_map.mp hx
    have := h.begun e he
    rw [List.mem_singleton.mp hy, hd]
    omega
  unsettled e he hs hm := by
    rcases List.mem_append.mp he with he | he
    · exact h.unsettled e he hs hm
    · rw [List.mem_singleton.mp he, hd] at hm
      exact Nat.lt_irrefl _ (h.ended _ hm)

/-- A decode ends, with an image (`decoded'`) or without one. -/
theorem settle {promise : Nat} {decoded' : List Nat} (hp : promise < promises)
    (hd : ∀ x ∈ decoded', x ∈ decoded ∨ x = promise) :
    DecodesAccounted consuming (decodes.map fun d => if d.promise = promise then { d with settled := true } else d)
      active promises decoded' where
  sum := by rw [h.sum, List.length_map]
  most := h.most
  room := h.room
  begun e he := by
    obtain ⟨d, hm, rfl⟩ := List.mem_map.mp he
    have := h.begun d hm
    split <;> exact this
  ended x hx := by
    rcases hd x hx with hx | rfl
    · exact h.ended x hx
    · exact hp
  distinct := by
    rw [List.map_map]
    have hsame : (KittyDecode.promise ∘ fun d => if d.promise = promise then { d with settled := true } else d) =
        KittyDecode.promise := by
      funext d
      simp only [Function.comp_apply]
      split <;> rfl
    rw [hsame]
    exact h.distinct
  unsettled e he hs hx := by
    obtain ⟨d, hm, rfl⟩ := List.mem_map.mp he
    by_cases hne : d.promise = promise
    · simp only [if_pos hne] at hs
      cases hs
    · simp only [if_neg hne] at hs hx
      exact (hd _ hx).elim (h.unsettled d hm hs) hne

theorem finished {d : KittyDecode} (hd : d ∈ decodes) :
    DecodesAccounted consuming (decodes.filter fun other => other.promise ≠ d.promise) (active - 1) promises decoded where
  sum := by
    have := length_filter_ne KittyDecode.promise h.distinct hd
    rw [h.sum]
    omega
  most := by
    have := h.most
    omega
  room hm := by
    have := h.room hm
    omega
  begun e he := h.begun e (List.mem_of_mem_filter he)
  ended := h.ended
  distinct := h.distinct.sublist (List.filter_sublist.map _)
  unsettled e he := h.unsettled e (List.mem_of_mem_filter he)

end DecodesAccounted

/-! ## Commands -/

namespace KittyAccounted

open KittyGraphics

variable {number : List Char → Option Rat} {g : KittyGraphics}

theorem respond (h : KittyAccounted g) (attributes : KittyAttributes) (imageId : Rat) (message : String) :
    KittyAccounted (g.respond number attributes imageId message) := { h with }

theorem clearPlacements (h : KittyAccounted g) : KittyAccounted g.clearPlacements := { h with placements := Nat.zero_le _ }

theorem clearImages (h : KittyAccounted g) : KittyAccounted g.clearImages :=
  { h with transfers := .cleared, images := h.images.cleared }

/-- The call of `consumeText` goes on, with nothing moving. -/
theorem goOn (h : KittyAccounted g) {consuming : Consuming} (hc : consuming.isMoving = false) :
    KittyAccounted { g with consuming := consuming } := { h with decodes := h.decodes.settled hc }

theorem place (h : KittyAccounted g) (image : KittyImage) (imageId : Rat) (attributes : KittyAttributes) (cursor : KittyCursor) :
    KittyAccounted (g.place number image imageId attributes cursor) := by
  unfold KittyGraphics.place
  simp only
  generalize hnext : (if numeric number attributes "p" 0 = 0 then { g with nextPlacementId := g.nextPlacementId + 1 } else g) =
    next
  generalize (if numeric number attributes "p" 0 = 0 then g.nextPlacementId else numeric number attributes "p" 0) = placementId
  have hn : KittyAccounted next := by
    rw [← hnext]
    split
    · exact { h with }
    · exact h
  split
  · exact hn.respond ..
  · rename_i hfull
    refine { hn with placements := ?_ }
    simp only
    rw [OrderedMap.size_set]
    split
    · exact hn.placements
    · rename_i hnone
      rw [Bool.not_eq_true] at hnone
      exact Nat.lt_of_not_le fun hle => hfull ⟨hnone, hle⟩

theorem put (h : KittyAccounted g) (imageId : Rat) (attributes : KittyAttributes) (cursor : KittyCursor) :
    KittyAccounted (g.put number imageId attributes cursor) := by
  unfold KittyGraphics.put
  split
  · exact h.place ..
  · split
    · exact h
    · exact { h with }

theorem putReady (h : KittyAccounted g) (p : KittyPut) : KittyAccounted (g.putReady number p) := by
  unfold KittyGraphics.putReady
  split
  · split
    · exact h.place ..
    · exact h
  · exact h

theorem deleteImage (h : KittyAccounted g) (imageId : Rat) :
    KittyAccounted { g with
      loading := g.loading.delete imageId
      transferChars := g.transferChars - ((g.transfers.get imageId).map KittyTransfer.chars).getD 0
      transfers := g.transfers.delete imageId } := by
  refine { h with transfers := ?_ }
  rw [← weightAt_transferSize]
  exact h.transfers.delete imageId

theorem delete (h : KittyAccounted g) (attributes : KittyAttributes) (imageId : Rat) :
    KittyAccounted (g.delete number attributes imageId) := by
  unfold KittyGraphics.delete
  simp only
  split
  · exact h.clearPlacements
  split
  · exact h.clearPlacements.clearImages
  split
  · have hd := h.deleteImage imageId
    have hfew (m : OrderedMap (Rat × Rat) KittyPlacement) (hm : m.size ≤ KITTY_MAX_PLACEMENTS) (keep : KittyPlacement → Bool) :
        (m.retain keep).size ≤ KITTY_MAX_PLACEMENTS := Nat.le_trans (m.size_retain_le keep) hm
    split
    · rename_i previous hk
      exact { hd with images := h.images.deleteSome hk, placements := hfew _ h.placements _ }
    · rename_i hk
      exact { hd with images := h.images.deleteNone hk, placements := hfew _ h.placements _ }
  split
  · exact { h with placements := Nat.le_trans (OrderedMap.size_retain_le ..) h.placements }
  · exact h

theorem query (h : KittyAccounted g) (attributes : KittyAttributes) (imageId : Rat) :
    KittyAccounted (g.query number attributes imageId) := by
  unfold KittyGraphics.query
  simp only
  split
  · exact h.respond ..
  split
  · exact h.respond ..
  split
  · exact h.respond ..
  · exact h.respond ..

/-! ## Transfers that end -/

theorem startDecode (h : KittyAccounted g) {transfer : KittyTransfer} {cursor : KittyCursor} {generation placementGeneration : Nat}
    (hroom : g.activeDecodes < KITTY_MAX_DECODES) (hc : g.consuming.isMoving = false) :
    KittyAccounted (g.startDecode transfer cursor generation placementGeneration) := by
  unfold KittyGraphics.startDecode
  split
  · exact h
  · exact { h with decodes := h.decodes.started rfl hroom hc }

theorem finishTransfer (h : KittyAccounted g) (hc : g.consuming.isMoving = false) (transfer : KittyTransfer)
    (attributes : KittyAttributes) (imageId : Rat) (answers : KittyAnswers) :
    KittyAccounted (g.finishTransfer number transfer attributes imageId answers) := by
  unfold KittyGraphics.finishTransfer
  simp only
  split
  · exact h.respond ..
  rename_i hbusy
  have hroom : g.activeDecodes < KITTY_MAX_DECODES := Int.not_le.mp hbusy
  split
  · exact h.respond ..
  split
  · split
    · exact h.respond ..
    · exact h.startDecode hroom hc
    · exact { h with decodes := { h.decodes with room := fun _ => hroom } }
  · exact h.startDecode hroom hc

theorem receive (h : KittyAccounted g) (hc : g.consuming.isMoving = false) {transfer : KittyTransfer} {imageId : Rat}
    (hchars : g.transfers.weightAt imageId transferSize = transfer.chars)
    (hroom : g.transfers.size < KITTY_MAX_TRANSFERS ∨ (g.transfers.get imageId).isSome = true)
    (attributes : KittyAttributes) (payload : List Char) (more : Bool) (answers : KittyAnswers) :
    KittyAccounted (g.receive number transfer attributes imageId payload more answers) := by
  have hdelete := h.transfers.delete imageId
  have hpos := weightAt_transferSize_nonneg g.transfers imageId
  have hmost := h.transfers.most
  rw [hchars] at hdelete hpos
  unfold KittyGraphics.receive
  simp only
  split
  · cases more with
    | true =>
      have hset := h.transfers.set imageId { transfer with chunks := [], chars := 0, rejected := true } hroom
        (by simp only [hchars]; omega)
      rw [hchars] at hset
      simp only [if_true]
      apply respond
      refine { h with transfers := ?_ }
      simpa using hset
    | false =>
      simp only [Bool.false_eq_true, if_false]
      apply respond
      exact { h with transfers := hdelete }
  · rename_i hfits
    simp only [not_or, Int.not_lt] at hfits
    cases more with
    | true =>
      have hset := h.transfers.set imageId { transfer with
        chunks := if payload = [] then transfer.chunks else transfer.chunks ++ [payload]
        chars := transfer.chars + Js.length payload } hroom (by simp only [hchars]; omega)
      rw [hchars] at hset
      simp only [if_true]
      refine { h with transfers := ?_ }
      have hsum : g.transferChars - transfer.chars + (transfer.chars + Js.length payload : Nat) =
          g.transferChars + Js.length payload := by omega
      simp only [hsum] at hset
      exact hset
    | false =>
      simp only [Bool.false_eq_true, if_false]
      refine finishTransfer ?_ ?_ ..
      rotate_left
      · exact hc
      refine { h with transfers := ?_ }
      have hsum : g.transferChars + Js.length payload - (transfer.chars + Js.length payload : Nat) =
          g.transferChars - transfer.chars := by omega
      simp only [hsum]
      exact hdelete

theorem transmit (h : KittyAccounted g) (hc : g.consuming.isMoving = false) (action : List Char) (attributes : KittyAttributes)
    (imageId : Rat) (payload : List Char) (more : Bool) (answers : KittyAnswers) :
    KittyAccounted (g.transmit number action attributes imageId payload more answers) := by
  unfold KittyGraphics.transmit
  split
  · rename_i transfer hk
    exact h.receive hc (g.transfers.weightAt_some imageId _ hk) (.inr (by rw [hk]; rfl)) ..
  · rename_i hk
    split
    · exact h.respond ..
    · rename_i hroom
      exact h.receive hc (g.transfers.weightAt_none imageId _ hk) (.inl (Nat.lt_of_not_le hroom)) ..

theorem handleCommand (h : KittyAccounted g) (hc : g.consuming.isMoving = false) (body : List Char) (answers : KittyAnswers) :
    KittyAccounted (g.handleCommand number body answers) := by
  unfold KittyGraphics.handleCommand
  simp only
  generalize hnext : (if numeric number (parseAttributes (body.takeWhile (· ≠ ';'))) "i" 0 = 0 then g.impliedImageId.2 else g) =
    next
  have hn : KittyAccounted next ∧ next.consuming.isMoving = false := by
    rw [← hnext]
    split
    · unfold impliedImageId
      split
      · split
        · exact ⟨{ h with }, hc⟩
        · exact ⟨h, hc⟩
      · exact ⟨{ h with }, hc⟩
    · exact ⟨h, hc⟩
  split
  · exact hn.1.delete ..
  split
  · exact hn.1.query ..
  split
  · exact hn.1.put ..
  split
  · exact hn.1
  · exact hn.1.transmit hn.2 ..

/-! ## Decodes that end -/

theorem decodeDone (h : KittyAccounted g) {d : KittyDecode} (hd : d ∈ g.decodes) (hs : d.settled = false) (width height : Nat) :
    KittyAccounted (g.decodeDone number d width height) := by
  have hnew := h.decodes.unsettled d hd hs
  have hdecodes : DecodesAccounted g.consuming (g.settle d.promise).decodes g.activeDecodes g.promises
      (g.decoded ++ [d.promise]) := h.decodes.settle (h.decodes.begun d hd) fun x hx => by simpa using hx
  unfold KittyGraphics.decodeDone decodedImage KittyGraphics.settle
  simp only
  split
  · exact { h with images := h.images.discarded hnew, decodes := hdecodes }
  split
  · apply respond
    exact { h with images := h.images.discarded hnew, decodes := hdecodes }
  rename_i hfits
  simp only [not_or, Int.not_lt, not_and, Nat.not_le] at hfits
  have hstored := h.images.stored d.transfer.imageId { id := d.promise, width := width, height := height } hnew hfits.1
  cases hk : g.images.get d.transfer.imageId with
  | none =>
    have himages := hstored (.inl (hfits.2 hk))
    rw [hk, Option.map_none, Option.toList_none, List.append_nil] at himages
    unfold OrderedMap.weightAt at himages
    rw [hk] at himages
    simp only
    split
    · apply place
      exact { h with images := himages, decodes := hdecodes }
    · exact { h with images := himages, decodes := hdecodes }
  | some old =>
    have himages := hstored (.inr (by rw [hk]; rfl))
    rw [hk, Option.map_some, Option.toList_some] at himages
    unfold OrderedMap.weightAt at himages
    rw [hk] at himages
    have hplacements := (g.placements.size_mapValues fun placement =>
      if placement.imageId = d.transfer.imageId then
        { placement with image := { id := d.promise, width := width, height := height } }
      else placement).le.trans h.placements
    simp only
    split
    · apply place
      exact { h with images := himages, placements := hplacements, decodes := hdecodes }
    · exact { h with images := himages, placements := hplacements, decodes := hdecodes }

theorem decodeFailed (h : KittyAccounted g) {d : KittyDecode} (hd : d ∈ g.decodes) : KittyAccounted (g.decodeFailed number d) := by
  have hs : KittyAccounted (g.settle d.promise) :=
    { h with decodes := h.decodes.settle (h.decodes.begun d hd) fun x hx => .inl hx }
  unfold KittyGraphics.decodeFailed
  split
  · exact hs.respond ..
  · exact hs

theorem finishDecode (h : KittyAccounted g) {d : KittyDecode} (hd : d ∈ g.decodes) : KittyAccounted (g.finishDecode d) :=
  { h with decodes := h.decodes.finished hd }

/-! ## The stream -/

theorem observeTerminalControls (h : KittyAccounted g) (data : List Char) : KittyAccounted (g.observeTerminalControls data) := by
  unfold KittyGraphics.observeTerminalControls
  simp only
  split
  · exact { h with placements := Nat.zero_le _ }
  · exact { h with }

theorem consumeText (h : KittyAccounted g) (data : List Char) : KittyAccounted (g.consumeText data) := by
  unfold KittyGraphics.consumeText
  extract_lets feed
  have hfeed : ∀ (g : KittyGraphics) (data : List Char), KittyAccounted g → KittyAccounted (feed g data) := by
    intro g data h
    simp only [feed]
    split
    · exact { h with decodes := h.decodes.settled rfl }
    · have ho := h.observeTerminalControls data
      exact { ho with decodes := ho.decodes.settled rfl }
  split
  · split
    · exact { h with }
    · apply hfeed
      exact { h with }
  · exact hfeed g data h

theorem intercept (h : KittyAccounted g) (sequence : List Char) (answers : KittyAnswers) :
    KittyAccounted (g.intercept number sequence answers) := by
  unfold KittyGraphics.intercept
  split
  · simp only
    split
    · split
      · exact { h with decodes := h.decodes.settled rfl }
      · exact { h with decodes := h.decodes.settled rfl }
    · exact { h with decodes := h.decodes.settled rfl }
  split
  · simp only
    split
    · exact { h with decodes := h.decodes.settled rfl }
    · exact { h with decodes := h.decodes.settled rfl }
  · refine handleCommand ?_ rfl ..
    exact { h with decodes := h.decodes.settled rfl }

theorem round (h : KittyAccounted g) (answers : KittyAnswers) : KittyAccounted (g.round number answers) := by
  unfold KittyGraphics.round
  split
  · exact h.goOn rfl
  split
  · simp only
    split
    · exact { h with decodes := h.decodes.settled rfl }
    · exact h.goOn rfl
  · split
    · exact { h with decodes := h.decodes.settled rfl }
    · exact h.intercept ..

theorem resume (h : KittyAccounted g) {answers : KittyAnswers} {g' : KittyGraphics} (hr : g.resume number answers = some g') :
    KittyAccounted g' := by
  unfold KittyGraphics.resume at hr
  split at hr
  · cases hr
  · cases hr
    exact h.round ..
  · cases hr
    exact h.goOn rfl
  · cases hr
    exact { h with decodes := h.decodes.settled rfl }
  · cases hr
    apply intercept
    exact { h with }
  · rename_i hc
    cases hr
    exact (h.goOn rfl).startDecode (h.decodes.room (by rw [hc]; rfl)) rfl

theorem writeFailed (h : KittyAccounted g) {ofBackend : Bool} {g' : KittyGraphics} (hr : g.writeFailed number ofBackend = some g') :
    KittyAccounted g' := by
  unfold KittyGraphics.writeFailed at hr
  split at hr
  · cases hr
  · cases hr
  · cases hr
    exact h.goOn rfl
  · cases hr
    exact h.goOn rfl
  · cases hr
    exact h.goOn rfl
  · split at hr
    · cases hr
      exact h.goOn rfl
    split at hr
    · cases hr
      exact (h.goOn rfl).respond ..
    · cases hr
      exact h.goOn rfl

theorem running_spec {promise : Nat} {settled : Bool} {d : KittyDecode} (h : g.running promise settled = some d) :
    d ∈ g.decodes ∧ d.settled = settled := by
  have hp := List.find?_some h
  simp only [Bool.and_eq_true, decide_eq_true_eq] at hp
  exact ⟨List.mem_of_find?_eq_some h, hp.2⟩

theorem step (h : KittyAccounted g) {e : KittyEvent} {g' : KittyGraphics} (hs : g.step number e = some g') : KittyAccounted g' := by
  unfold KittyGraphics.step at hs
  cases e with
  | consumeText data =>
    simp only at hs
    split at hs
    · cases hs
      exact h.consumeText data
    · cases hs
  | resume answers => exact h.resume hs
  | writeFailed ofBackend => exact h.writeFailed hs
  | decoded promise width height =>
    obtain ⟨d, hd, rfl⟩ := Option.map_eq_some_iff.mp hs
    obtain ⟨hm, hu⟩ := running_spec hd
    exact h.decodeDone hm hu width height
  | decodeFailed promise =>
    obtain ⟨d, hd, rfl⟩ := Option.map_eq_some_iff.mp hs
    exact h.decodeFailed (running_spec hd).1
  | finished promise =>
    obtain ⟨d, hd, rfl⟩ := Option.map_eq_some_iff.mp hs
    exact h.finishDecode (running_spec hd).1
  | putReady index =>
    cases hp : g.puts[index]? with
    | none =>
      simp only [hp] at hs
      cases hs
    | some p =>
      simp only [hp] at hs
      split at hs
      · cases hs
        have hready : KittyAccounted (g.putReady number p) := h.putReady p
        exact { hready with }
      · cases hs
  | clear =>
    cases hs
    exact { h with transfers := .cleared, images := h.images.cleared, placements := Nat.zero_le _ }
  | clearPlacements =>
    cases hs
    exact h.clearPlacements

theorem start : KittyAccounted {} where
  transfers := .cleared
  images := ⟨rfl, by decide, by decide, List.nodup_nil, fun _ => rfl⟩
  placements := by decide
  decodes := ⟨rfl, by decide, fun h => (by cases h), by simp, by simp, List.nodup_nil, by simp⟩

theorem run {es : List KittyEvent} (hr : (kittyMachine number).run {} es = some g) : KittyAccounted g :=
  (kittyMachine number).run_inv (fun _ _ _ h hs => h.step hs) hr .start

end KittyAccounted

/-! ## All interleavings -/

/-- What the counters say, and where the images are. -/
structure KittyBalanced (g : KittyGraphics) : Prop where
  transferChars : g.transferChars = (g.transfers.values.map fun transfer => (transfer.chars : Int)).sum
  transferCharsBound : g.transferChars ≤ 32 * 1024 * 1024
  imageBytes : g.imageBytes = (g.images.values.map fun image => (image.width * image.height * 4 : Int)).sum
  imageBytesBound : g.imageBytes ≤ 64 * 1024 * 1024
  images : g.images.size ≤ 64
  transfers : g.transfers.size ≤ 16
  placements : g.placements.size ≤ 256
  activeDecodes : g.activeDecodes = g.decodes.length
  activeDecodesBound : 0 ≤ g.activeDecodes ∧ g.activeDecodes ≤ 4
  decoded : g.decoded.Nodup ∧ ∀ x ∈ g.decoded,
    (x ∈ g.images.values.map KittyImage.id ∧ x ∉ g.released) ∨
      (x ∉ g.images.values.map KittyImage.id ∧ g.released.count x = 1)

/-- Whatever is consumed, and in whatever order decodes end, the counters are exact and bounded; every decoded image
is in the cache or was released once. -/
theorem kitty_balanced (number : List Char → Option Rat) {es : List KittyEvent} {g : KittyGraphics}
    (hr : (kittyMachine number).run {} es = some g) : KittyBalanced g := by
  have h := KittyAccounted.run hr
  refine {
    transferChars := h.transfers.sum, transferCharsBound := h.transfers.most, imageBytes := h.images.sum
    imageBytesBound := h.images.most, images := h.images.few, transfers := h.transfers.few, placements := h.placements
    activeDecodes := h.decodes.sum, activeDecodesBound := ⟨?_, h.decodes.most⟩, decoded := ⟨h.images.once, fun x hx => ?_⟩ }
  · rw [h.decodes.sum]
    exact Int.natCast_nonneg _
  · have hkept := h.images.kept x
    rw [weight_isImage, List.count_eq_one_of_mem h.images.once hx] at hkept
    by_cases hm : x ∈ g.images.values.map KittyImage.id
    · have hpos := List.count_pos_iff.mpr hm
      exact .inl ⟨hm, List.count_eq_zero.mp (by omega)⟩
    · have hzero := List.count_eq_zero.mpr hm
      exact .inr ⟨hm, by omega⟩

/-- Two images under one id. -/
def sameIdEvents : List KittyEvent :=
  let image := "\x1b_Gi=7,f=24,s=1,v=1;AAAA\x1b\\".toList
  [.consumeText image, .resume {}, .resume {}, .consumeText image, .resume {}, .resume {},
    .decoded 1 1 1, .decoded 0 1 1, .finished 0, .finished 1]

def digits (s : List Char) : Option Rat := (Js.decimal s).map fun n => n

theorem kitty_balanced_sameId : ∃ g, (kittyMachine digits).run {} sameIdEvents = some g ∧ g.decoded = [1, 0] ∧
    g.released = [0] ∧ g.imageBytes = 4 ∧ KittyBalanced g := by
  have hrun : ((kittyMachine digits).run {} sameIdEvents).map (fun g => (g.decoded, g.released, g.imageBytes)) =
    some ([1, 0], [0], 4) := by decide +kernel
  obtain ⟨g, hg, he⟩ := Option.map_eq_some_iff.mp hrun
  simp only [Prod.mk.injEq] at he
  exact ⟨g, hg, he.1, he.2.1, he.2.2, kitty_balanced digits hg⟩

end Webshell
