import Webshell.Base64
import Webshell.JsValue
import Webshell.Machine
import Webshell.OrderedMap

/-!
# Kitty graphics

The images a program sends to its terminal. Streams are consumed one after the
other; an image is decoded beside them, and a decode that ends finds whatever
the stream, a reset or a deletion has made of the rest meanwhile.

Numbers are read with `number`, which stands for `Number` on the finite values:
what follows holds for every such function.
-/

namespace Webshell

def KITTY_START : List Char := ['\x1b', '_', 'G']

def KITTY_END : List Char := ['\x1b', '\\']

def WINDOW_PIXEL_SIZE_QUERY : List Char := ['\x1b', '[', '1', '4', 't']

def INTERCEPTED_STARTS : List (List Char) := [KITTY_START, WINDOW_PIXEL_SIZE_QUERY]

def TERMINAL_CONTROL_SUFFIX_LENGTH : Nat := 64

def KITTY_MAX_COMMAND_CHARS : Nat := 1024 * 1024

def KITTY_MAX_TRANSFER_CHARS : Nat := 32 * 1024 * 1024

def KITTY_MAX_IMAGE_BYTES : Nat := 64 * 1024 * 1024

def KITTY_MAX_IMAGES : Nat := 64

def KITTY_MAX_TRANSFERS : Nat := 16

def KITTY_MAX_DECODES : Nat := 4

def KITTY_MAX_PLACEMENTS : Nat := 256

/-! ## Texts -/

def indexOf (part : List Char) : List Char → Option Nat
  | [] => if part = [] then some 0 else none
  | c :: rest => if part.isPrefixOf (c :: rest) then some 0 else (indexOf part rest).map (· + 1)

/-- The first sequence in the buffer that is not for the terminal. -/
def nextInterceptedSequence (buffer : List Char) : Option (Nat × List Char) :=
  INTERCEPTED_STARTS.foldl (fun next sequence =>
    match indexOf sequence buffer, next with
    | none, _ => next
    | some index, none => some (index, sequence)
    | some index, some (other, _) => if index < other then some (index, sequence) else next) none

/-- How much of the buffer's end may be the start of a sequence. -/
def incompleteStartLength (buffer : List Char) : Nat :=
  INTERCEPTED_STARTS.foldl (fun keep sequence =>
    ((List.range sequence.length).filter fun length => (sequence.take length).isSuffixOf buffer).foldl max keep) 0

def isParameter (c : Char) : Bool := '0' ≤ c && c ≤ '?'

def isIntermediate (c : Char) : Bool := ' ' ≤ c && c ≤ '/'

/-- What comes after the parameters of a control sequence and the intermediates. -/
def afterParameters (text : List Char) : List Char := (text.dropWhile isParameter).dropWhile isIntermediate

/-- `TERMINAL_CLEAR_PATTERN` at the start of a text: the length of the match, and the
parameters where it is an erase in display. -/
def terminalClear (text : List Char) : Option (Nat × Option (List Char)) :=
  let erase (introducer : Nat) (rest : List Char) : Option (Nat × Option (List Char)) :=
    match afterParameters rest with
    | 'J' :: after => some (introducer + (rest.length - after.length), some (rest.takeWhile isParameter))
    | _ => none
  match text with
  | '\x1b' :: 'c' :: _ => some (2, none)
  | '\x1b' :: '[' :: rest => erase 2 rest
  | '\x9b' :: rest => erase 1 rest
  | _ => none

/-- All matches, with where they end; `skip` more characters belong to the last one. -/
def terminalClears (skip index : Nat) : List Char → List (Nat × Option (List Char))
  | [] => []
  | c :: rest =>
    if 0 < skip then terminalClears (skip - 1) (index + 1) rest
    else
      match terminalClear (c :: rest) with
      | some (length, parameters) => (index + length, parameters) :: terminalClears (length - 1) (index + 1) rest
      | none => terminalClears 0 (index + 1) rest

/-- Whether the match takes the placements away. -/
def clearsDisplay : Option (List Char) → Bool
  | none => true
  | some parameters =>
    let parameters := match parameters with
      | c :: rest => if c ∈ ['?', '<', '=', '>'] then rest else parameters
      | [] => []
    parameters.takeWhile (fun c => c ≠ ';' && c ≠ ':') ∈ [['2'], ['3']]

def isIntroducer (c : Char) : Bool := c = '\x1b' || c = '\x9b'

/-- The text from its last introducer on. -/
def lastIntroducer : List Char → Option (List Char)
  | [] => none
  | c :: rest => (lastIntroducer rest).or (if isIntroducer c then some (c :: rest) else none)

def incompleteTerminalControlSuffix (data : List Char) : List Char :=
  let unfinished (suffix rest : List Char) : List Char :=
    match afterParameters rest with
    | c :: _ => if '@' ≤ c ∧ c ≤ '~' then [] else if Js.length suffix ≤ TERMINAL_CONTROL_SUFFIX_LENGTH then suffix else []
    | [] => if Js.length suffix ≤ TERMINAL_CONTROL_SUFFIX_LENGTH then suffix else []
  match lastIntroducer data with
  | none => []
  | some ['\x1b'] => ['\x1b']
  | some ['\x9b'] => ['\x9b']
  | some ('\x1b' :: '[' :: rest) => unfinished ('\x1b' :: '[' :: rest) rest
  | some ('\x9b' :: rest) => unfinished ('\x9b' :: rest) rest
  | some _ => []

/-! ## Commands -/

abbrev KittyAttributes := OrderedMap (List Char) (List Char)

def parseAttributes (control : List Char) : KittyAttributes :=
  (control.splitOn ',').foldl (fun attributes part =>
    if part = [] then attributes
    else
      match part.dropWhile (· ≠ '=') with
      | [] => attributes.set part []
      | _ :: value => attributes.set (part.takeWhile (· ≠ '=')) value) ∅

def decodeBase64 (payload : List Char) : Option (List UInt8) := Base64.atob (payload.filter fun c => !Js.isSpace c)

structure KittyCursor where
  x : Rat := 0
  y : Rat := 0
  absoluteRow : Option Rat := none

/-- The decoded bitmaps are told apart by the decode they come from. -/
structure KittyImage where
  id : Nat
  width : Nat
  height : Nat
  deriving DecidableEq

def imageByteSize (image : KittyImage) : Int := image.width * image.height * 4

structure KittyTransfer where
  imageId : Rat
  action : List Char
  attributes : KittyAttributes
  chunks : List (List Char) := []
  chars : Nat := 0
  rejected : Bool := false

structure KittyPlacement where
  image : KittyImage
  imageId : Rat
  placementId : Rat
  cellX : Rat
  cellY : Rat
  absoluteRow : Option Rat
  columns : Option Rat
  rows : Option Rat
  sourceX : Rat
  sourceY : Rat
  sourceWidth : Option Rat
  sourceHeight : Option Rat
  hasSourceRectangle : Bool
  pixelOffsetX : Rat
  pixelOffsetY : Rat
  zIndex : Rat

/-- A decode, from its start to the end of its last callback. -/
structure KittyDecode where
  promise : Nat
  transfer : KittyTransfer
  cursor : KittyCursor
  generation : Nat
  placementGeneration : Nat
  /-- The image is there, or the decode has failed. -/
  settled : Bool := false

/-- A `put` that waits for a decode. -/
structure KittyPut where
  promise : Nat
  imageId : Rat
  attributes : KittyAttributes
  cursor : KittyCursor
  generation : Nat
  placementGeneration : Nat

/-- What is written back to the program. -/
inductive KittyResponse
  | image (imageId placementId : Rat) (message : String)
  | pixelSize (height width : Nat)

/-- Where a call of `consumeText` waits. -/
inductive Consuming
  | idle
  /-- The head of the loop. -/
  | loop
  | wroteAll
  | wroteTail (keep : Nat)
  | wroteBefore (index : Nat) (sequence : List Char)
  /-- The cursor's movement is written before the image is decoded; `attributes` are the last command's. -/
  | moving (transfer : KittyTransfer) (cursor : KittyCursor) (generation placementGeneration : Nat) (attributes : KittyAttributes)

/-- What the page answers in a step. -/
structure KittyAnswers where
  cursor : KittyCursor := {}
  /-- `cursorMovement`, which is computed in floating point. -/
  movement : Option (List Char) := some []
  pixelSize : Option (Nat × Nat) := none

structure KittyGraphics where
  inputBuffer : List Char := []
  terminalControlBuffer : List Char := []
  transfers : OrderedMap Rat KittyTransfer := ∅
  images : OrderedMap Rat KittyImage := ∅
  loading : OrderedMap Rat Nat := ∅
  placements : OrderedMap (Rat × Rat) KittyPlacement := ∅
  nextImageId : Rat := 1
  nextPlacementId : Rat := 1
  generation : Nat := 0
  placementGeneration : Nat := 0
  discardingCommand : Bool := false
  transferChars : Int := 0
  imageBytes : Int := 0
  activeDecodes : Int := 0
  /-- The call of `consumeText`, the decodes and the waiting `put`s. -/
  consuming : Consuming := .idle
  decodes : List KittyDecode := []
  puts : List KittyPut := []
  promises : Nat := 0
  /-- The texts handed to the terminal, and what was answered. -/
  written : List (List Char) := []
  responses : List KittyResponse := []
  /-- The images that were decoded, and those given back, each as often as it was. -/
  decoded : List Nat := []
  released : List Nat := []

namespace KittyGraphics

def releaseImage (g : KittyGraphics) (image : KittyImage) : KittyGraphics := { g with released := g.released ++ [image.id] }

def releaseImages (g : KittyGraphics) : KittyGraphics := { g with released := g.released ++ g.images.values.map KittyImage.id }

def clearPlacements (g : KittyGraphics) : KittyGraphics :=
  { g with placementGeneration := g.placementGeneration + 1, placements := ∅ }

/-- Nothing is left of transfers, images and decodes. -/
def clearImages (g : KittyGraphics) : KittyGraphics :=
  { g.releaseImages with
    generation := g.generation + 1, transfers := ∅, transferChars := 0, images := ∅, imageBytes := 0, loading := ∅ }

def clear (g : KittyGraphics) : KittyGraphics :=
  { g with discardingCommand := false, inputBuffer := [], terminalControlBuffer := [] }.clearImages.clearPlacements

section Numbers

variable (number : List Char → Option Rat)

def numeric (attributes : KittyAttributes) (key : String) (fallback : Rat) : Rat :=
  match attributes.get key.toList with
  | none => fallback
  | some value => (number value).getD fallback

def respond (g : KittyGraphics) (attributes : KittyAttributes) (imageId : Rat) (message : String) : KittyGraphics :=
  { g with responses := g.responses ++ [.image imageId (numeric number attributes "p" 0) message] }

/-! ## Placements -/

/-- `value || undefined`. -/
def orUndefined (value : Rat) : Option Rat := if value = 0 then none else some value

def place (g : KittyGraphics) (image : KittyImage) (imageId : Rat) (attributes : KittyAttributes) (cursor : KittyCursor) :
    KittyGraphics :=
  let explicit := numeric number attributes "p" 0
  let placementId := if explicit = 0 then g.nextPlacementId else explicit
  let g := if explicit = 0 then { g with nextPlacementId := g.nextPlacementId + 1 } else g
  if g.placements.has (imageId, placementId) = false ∧ KITTY_MAX_PLACEMENTS ≤ g.placements.size then
    g.respond number attributes imageId "EINVAL: too many image placements"
  else
    { g with
      placements := g.placements.set (imageId, placementId) {
        image := image, imageId := imageId, placementId := placementId, cellX := max 0 cursor.x, cellY := max 0 cursor.y
        absoluteRow := cursor.absoluteRow
        columns := orUndefined (numeric number attributes "c" 0), rows := orUndefined (numeric number attributes "r" 0)
        sourceX := numeric number attributes "x" 0, sourceY := numeric number attributes "y" 0
        sourceWidth := orUndefined (numeric number attributes "w" 0)
        sourceHeight := orUndefined (numeric number attributes "h" 0)
        hasSourceRectangle := ["x", "y", "w", "h"].any fun name => attributes.has name.toList
        pixelOffsetX := numeric number attributes "X" 0, pixelOffsetY := numeric number attributes "Y" 0
        zIndex := numeric number attributes "z" 0 } }

def put (g : KittyGraphics) (imageId : Rat) (attributes : KittyAttributes) (cursor : KittyCursor) : KittyGraphics :=
  match g.images.get imageId with
  | some image => g.place number image imageId attributes cursor
  | none =>
    match g.loading.get imageId with
    | none => g
    | some promise =>
      { g with
        puts := g.puts ++ [{
          promise := promise, imageId := imageId, attributes := attributes, cursor := cursor
          generation := g.generation, placementGeneration := g.placementGeneration }] }

/-- A `put` whose decode has brought `image`. -/
def putReady (g : KittyGraphics) (p : KittyPut) : KittyGraphics :=
  match g.images.get p.imageId with
  | some image =>
    if g.generation = p.generation ∧ g.placementGeneration = p.placementGeneration ∧ image.id = p.promise then
      g.place number image p.imageId p.attributes p.cursor
    else g
  | none => g

/-! ## Deleting and asking -/

def delete (g : KittyGraphics) (attributes : KittyAttributes) (imageId : Rat) : KittyGraphics :=
  let target := (attributes.get "d".toList).getD []
  if target = [] then g.clearPlacements
  else if target = "a".toList ∨ target = "A".toList then g.clearPlacements.clearImages
  else if target = "i".toList ∨ target = "I".toList then
    let g := { g with
      loading := g.loading.delete imageId
      transferChars := g.transferChars - ((g.transfers.get imageId).map KittyTransfer.chars).getD 0
      transfers := g.transfers.delete imageId }
    let g := match g.images.get imageId with
      | some previous => { g with imageBytes := g.imageBytes - imageByteSize previous }.releaseImage previous
      | none => g
    { g with
      images := g.images.delete imageId, placements := g.placements.retain fun placement => placement.imageId ≠ imageId }
  else if target = "p".toList then
    { g with placements := g.placements.retain fun placement => placement.placementId ≠ numeric number attributes "p" 0 }
  else g

def query (g : KittyGraphics) (attributes : KittyAttributes) (imageId : Rat) : KittyGraphics :=
  let transmission := (attributes.get "t".toList).getD []
  let format := numeric number attributes "f" 100
  let compression := (attributes.get "o".toList).getD []
  if transmission ≠ [] ∧ transmission ≠ "d".toList then
    g.respond number attributes imageId "EINVAL: only direct transmission is supported"
  else if format ≠ 24 ∧ format ≠ 32 ∧ format ≠ 100 then
    g.respond number attributes imageId "EINVAL: image format is unsupported"
  else if compression ≠ [] ∧ compression ≠ "z".toList then
    g.respond number attributes imageId "EINVAL: compression is unsupported"
  else g.respond number attributes imageId "OK"

/-! ## Transfers -/

/-- The end of `finishTransfer`, once the movement is written. -/
def startDecode (g : KittyGraphics) (transfer : KittyTransfer) (cursor : KittyCursor) (generation placementGeneration : Nat) :
    KittyGraphics :=
  if g.generation ≠ generation then g
  else
    { g with
      activeDecodes := g.activeDecodes + 1
      decodes := g.decodes ++ [{
        promise := g.promises, transfer := transfer, cursor := cursor, generation := generation
        placementGeneration := placementGeneration }]
      promises := g.promises + 1
      loading := g.loading.set transfer.imageId g.promises }

/-- `finishTransfer`, with the errors its caller catches; `attributes` are the last command's. -/
def finishTransfer (g : KittyGraphics) (transfer : KittyTransfer) (attributes : KittyAttributes) (imageId : Rat)
    (answers : KittyAnswers) : KittyGraphics :=
  let failed := g.respond number attributes imageId "EINVAL: image decode failed"
  if (KITTY_MAX_DECODES : Int) ≤ g.activeDecodes then
    g.respond number transfer.attributes transfer.imageId "EINVAL: image decoder is busy"
  else
    match decodeBase64 transfer.chunks.flatten with
    | none => failed
    | some _ =>
      let transfer := { transfer with chunks := [] }
      if transfer.action = "T".toList then
        match answers.movement with
        | none => failed
        | some [] => g.startDecode transfer answers.cursor g.generation g.placementGeneration
        | some movement =>
          { g with
            written := g.written ++ [movement]
            consuming := .moving transfer answers.cursor g.generation g.placementGeneration attributes }
      else g.startDecode transfer answers.cursor g.generation g.placementGeneration

/-- A command's payload put into its transfer, which is in the map under `imageId`, or new. -/
def receive (g : KittyGraphics) (transfer : KittyTransfer) (attributes : KittyAttributes) (imageId : Rat) (payload : List Char)
    (more : Bool) (answers : KittyAnswers) : KittyGraphics :=
  if transfer.rejected = true ∨ 8192 ≤ transfer.chunks.length ∨
      (KITTY_MAX_TRANSFER_CHARS : Int) < g.transferChars + Js.length payload then
    let transfers :=
      if more then g.transfers.set imageId { transfer with chunks := [], chars := 0, rejected := true }
      else g.transfers.delete imageId
    { g with transferChars := g.transferChars - transfer.chars, transfers := transfers }.respond number attributes imageId
      "EINVAL: image transfer exceeds capacity"
  else
    let transfer := { transfer with
      chunks := if payload = [] then transfer.chunks else transfer.chunks ++ [payload]
      chars := transfer.chars + Js.length payload }
    let transferChars := g.transferChars + Js.length payload
    if more then { g with transfers := g.transfers.set imageId transfer, transferChars := transferChars }
    else
      { g with transfers := g.transfers.delete imageId, transferChars := transferChars - transfer.chars }.finishTransfer number
        transfer attributes imageId answers

def transmit (g : KittyGraphics) (action : List Char) (attributes : KittyAttributes) (imageId : Rat) (payload : List Char)
    (more : Bool) (answers : KittyAnswers) : KittyGraphics :=
  match g.transfers.get imageId with
  | some transfer => g.receive number transfer attributes imageId payload more answers
  | none =>
    if KITTY_MAX_TRANSFERS ≤ g.transfers.size then
      g.respond number attributes imageId "EINVAL: too many image transfers"
    else
      g.receive number { imageId := imageId, action := action, attributes := attributes } attributes imageId payload more answers

/-- The image a command without one is about: the transfer begun first, or a new one. -/
def impliedImageId (g : KittyGraphics) : Rat × KittyGraphics :=
  match g.transfers.first with
  | some transfer =>
    if transfer.imageId = 0 then (g.nextImageId, { g with nextImageId := g.nextImageId + 1 }) else (transfer.imageId, g)
  | none => (g.nextImageId, { g with nextImageId := g.nextImageId + 1 })

def handleCommand (g : KittyGraphics) (body : List Char) (answers : KittyAnswers) : KittyGraphics :=
  let control := body.takeWhile (· ≠ ';')
  let payload := (body.dropWhile (· ≠ ';')).drop 1
  let attributes := parseAttributes control
  let action := (attributes.get "a".toList).getD "t".toList
  let explicitImageId := numeric number attributes "i" 0
  let implied := g.impliedImageId
  let imageId := if explicitImageId = 0 then implied.1 else explicitImageId
  let g := if explicitImageId = 0 then implied.2 else g
  let more := decide (numeric number attributes "m" 0 = 1)
  if action = "d".toList then g.delete number attributes imageId
  else if action = "q".toList then g.query number attributes imageId
  else if action = "p".toList then g.put number imageId attributes answers.cursor
  else if action ≠ "t".toList ∧ action ≠ "T".toList then g
  else g.transmit number action attributes imageId payload more answers

/-! ## Decodes -/

/-- The decode is over, with an image or without one; its callbacks are still to end. -/
def settle (g : KittyGraphics) (promise : Nat) : KittyGraphics :=
  { g with decodes := g.decodes.map fun d => if d.promise = promise then { d with settled := true } else d }

/-- A decode brings an image: it goes into the cache, or is released. -/
def decodedImage (g : KittyGraphics) (d : KittyDecode) (image : KittyImage) : KittyGraphics :=
  let imageId := d.transfer.imageId
  if g.generation ≠ d.generation ∨ g.loading.get imageId ≠ some d.promise then g.releaseImage image
  else
    let previous := g.images.get imageId
    let nextBytes := g.imageBytes - (previous.map imageByteSize).getD 0 + imageByteSize image
    if (KITTY_MAX_IMAGE_BYTES : Int) < nextBytes ∨ (previous = none ∧ KITTY_MAX_IMAGES ≤ g.images.size) then
      (g.releaseImage image).respond number d.transfer.attributes imageId "EINVAL: image cache is full"
    else
      let g := match previous with
        | some old =>
          { g with
            placements := g.placements.mapValues fun placement =>
              if placement.imageId = imageId then { placement with image := image } else placement }.releaseImage old
        | none => g
      let g := { g with imageBytes := nextBytes, images := g.images.set imageId image }
      if d.transfer.action = "T".toList ∧ g.placementGeneration = d.placementGeneration then
        g.place number image imageId d.transfer.attributes d.cursor
      else g

def decodeDone (g : KittyGraphics) (d : KittyDecode) (width height : Nat) : KittyGraphics :=
  { g.settle d.promise with decoded := g.decoded ++ [d.promise] }.decodedImage number d
    { id := d.promise, width := width, height := height }

def decodeFailed (g : KittyGraphics) (d : KittyDecode) : KittyGraphics :=
  if g.generation = d.generation then
    (g.settle d.promise).respond number d.transfer.attributes d.transfer.imageId "EINVAL: image decode failed"
  else g.settle d.promise

/-- The last callback. -/
def finishDecode (g : KittyGraphics) (d : KittyDecode) : KittyGraphics :=
  { g with
    activeDecodes := g.activeDecodes - 1
    decodes := g.decodes.filter fun other => other.promise ≠ d.promise
    loading := if g.loading.get d.transfer.imageId = some d.promise then g.loading.delete d.transfer.imageId else g.loading }

/-! ## The stream -/

def observeTerminalControls (g : KittyGraphics) (data : List Char) : KittyGraphics :=
  let prefixLength := g.terminalControlBuffer.length
  let combined := g.terminalControlBuffer ++ data
  let cleared := (terminalClears 0 0 combined).any fun found => prefixLength < found.1 && clearsDisplay found.2
  let g := if cleared then g.clearPlacements else g
  { g with terminalControlBuffer := incompleteTerminalControlSuffix combined }

def consumeText (g : KittyGraphics) (data : List Char) : KittyGraphics :=
  let feed (g : KittyGraphics) (data : List Char) : KittyGraphics :=
    if g.inputBuffer = [] ∧ g.terminalControlBuffer = [] ∧ data ≠ [] ∧ data.all (fun c => !isIntroducer c) = true then
      { g with written := g.written ++ [data], consuming := .wroteAll }
    else
      let g := g.observeTerminalControls data
      { g with inputBuffer := g.inputBuffer ++ data, consuming := .loop }
  if g.discardingCommand then
    let combined := g.inputBuffer ++ data
    match indexOf KITTY_END combined with
    | none => { g with inputBuffer := if ['\x1b'].isSuffixOf combined then ['\x1b'] else [] }
    | some stop => feed { g with discardingCommand := false, inputBuffer := [] } (combined.drop (stop + KITTY_END.length))
  else feed g data

/-- A round of the loop, with the sequence at the start of the buffer. -/
def intercept (g : KittyGraphics) (sequence : List Char) (answers : KittyAnswers) : KittyGraphics :=
  if sequence = WINDOW_PIXEL_SIZE_QUERY then
    let g := { g with inputBuffer := g.inputBuffer.drop WINDOW_PIXEL_SIZE_QUERY.length, consuming := .loop }
    match answers.pixelSize with
    | some (width, height) =>
      if width = 0 ∨ height = 0 then g else { g with responses := g.responses ++ [.pixelSize height width] }
    | none => g
  else
    match indexOf KITTY_END (g.inputBuffer.drop KITTY_START.length) with
    | none =>
      let g := { g with consuming := .idle }
      if KITTY_MAX_COMMAND_CHARS < Js.length g.inputBuffer then
        { g.respond number ∅ 0 "EINVAL: image command exceeds capacity" with
          discardingCommand := true
          inputBuffer := if ['\x1b'].isSuffixOf g.inputBuffer then ['\x1b'] else [] }
      else g
    | some length =>
      let body := (g.inputBuffer.drop KITTY_START.length).take length
      { g with
        inputBuffer := g.inputBuffer.drop (KITTY_START.length + length + KITTY_END.length)
        consuming := .loop }.handleCommand number body answers

def round (g : KittyGraphics) (answers : KittyAnswers) : KittyGraphics :=
  if g.inputBuffer = [] then { g with consuming := .idle }
  else
    match nextInterceptedSequence g.inputBuffer with
    | none =>
      let keep := incompleteStartLength g.inputBuffer
      if keep < g.inputBuffer.length then
        { g with
          written := g.written ++ [g.inputBuffer.take (g.inputBuffer.length - keep)]
          consuming := .wroteTail keep }
      else { g with consuming := .idle }
    | some (index, sequence) =>
      if 0 < index then
        { g with written := g.written ++ [g.inputBuffer.take index], consuming := .wroteBefore index sequence }
      else g.intercept number sequence answers

/-- The call goes on from where it waits. -/
def resume (g : KittyGraphics) (answers : KittyAnswers) : Option KittyGraphics :=
  match g.consuming with
  | .idle => none
  | .loop => some (g.round number answers)
  | .wroteAll => some { g with consuming := .idle }
  | .wroteTail keep => some { g with inputBuffer := g.inputBuffer.drop (g.inputBuffer.length - keep), consuming := .idle }
  | .wroteBefore index sequence => some ({ g with inputBuffer := g.inputBuffer.drop index }.intercept number sequence answers)
  | .moving transfer cursor generation placementGeneration _ =>
    some ({ g with consuming := .loop }.startDecode transfer cursor generation placementGeneration)

/-- What is waited for fails: the call ends, unless the error is one of a transfer. -/
def writeFailed (g : KittyGraphics) (ofBackend : Bool) : Option KittyGraphics :=
  match g.consuming with
  | .idle | .loop => none
  | .wroteAll | .wroteTail _ | .wroteBefore .. => some { g with consuming := .idle }
  | .moving transfer _ generation _ attributes =>
    if ofBackend then some { g with consuming := .idle }
    else if g.generation = generation then
      some ({ g with consuming := .loop }.respond number attributes transfer.imageId "EINVAL: image decode failed")
    else some { g with consuming := .loop }

end Numbers

end KittyGraphics

/-! ## All interleavings -/

inductive KittyEvent
  | consumeText (data : List Char)
  | resume (answers : KittyAnswers)
  | writeFailed (ofBackend : Bool)
  | decoded (promise width height : Nat)
  | decodeFailed (promise : Nat)
  /-- The last callback of a decode. -/
  | finished (promise : Nat)
  /-- The callback of a `put` that waited. -/
  | putReady (index : Nat)
  | clear
  | clearPlacements

namespace KittyGraphics

variable (number : List Char → Option Rat)

def running (g : KittyGraphics) (promise : Nat) (settled : Bool) : Option KittyDecode :=
  g.decodes.find? fun d => d.promise = promise && d.settled = settled

/-- The next text is consumed when the last one is. -/
def canConsume (g : KittyGraphics) : Bool :=
  match g.consuming with
  | .idle => true
  | _ => false

def step (g : KittyGraphics) : KittyEvent → Option KittyGraphics
  | .consumeText data => if g.canConsume then some (g.consumeText data) else none
  | .resume answers => g.resume number answers
  | .writeFailed ofBackend => g.writeFailed number ofBackend
  | .decoded promise width height => (g.running promise false).map fun d => g.decodeDone number d width height
  | .decodeFailed promise => (g.running promise false).map fun d => g.decodeFailed number d
  | .finished promise => (g.running promise true).map g.finishDecode
  | .putReady index =>
    match g.puts[index]? with
    | none => none
    | some p => if p.promise ∈ g.decoded then some { g.putReady number p with puts := g.puts.eraseIdx index } else none
  | .clear => some g.clear
  | .clearPlacements => some g.clearPlacements

end KittyGraphics

def kittyMachine (number : List Char → Option Rat) : Machine KittyGraphics KittyEvent where
  step := KittyGraphics.step number

end Webshell
