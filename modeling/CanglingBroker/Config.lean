import CanglingBroker.Topic

/-!
# Topic configuration

How a topic delivers (`DeliveryMode`) and whether its messages are stored
(`PersistenceMode`).  The database keeps both as text, which is read leniently:
unknown text falls back to the implicit configuration, broadcast and ephemeral.
-/

namespace CanglingBroker

/-! ## Text -/

/-- Unicode `White_Space`, as `str::trim` uses it. -/
def isWhiteSpace (character : Char) : Bool :=
  let code := character.toNat
  (9 ≤ code && code ≤ 13) || code = 0x20 || code = 0x85 || code = 0xA0 ||
    code = 0x1680 || (0x2000 ≤ code && code ≤ 0x200A) || code = 0x2028 ||
    code = 0x2029 || code = 0x202F || code = 0x205F || code = 0x3000

/-- `str::trim`, on the characters of the text. -/
def trim (text : List Char) : List Char :=
  ((text.dropWhile isWhiteSpace).reverse.dropWhile isWhiteSpace).reverse

/-- `value.trim().to_ascii_lowercase()`. -/
def normalized (value : String) : String :=
  String.ofList ((trim value.toList).map Char.toLower)

/-! ## Modes -/

/-- Who gets a message: one stream, or every matching stream. -/
inductive DeliveryMode where
  | single
  | broadcast
  deriving DecidableEq, Repr

namespace DeliveryMode

def asStr : DeliveryMode → String
  | .single => "single"
  | .broadcast => "broadcast"

def parse (value : String) : Option DeliveryMode :=
  let word := normalized value
  if word = "single" ∨ word = "queue" ∨ word = "competing" then
    some .single
  else if word = "broadcast" ∨ word = "fanout" ∨ word = "pubsub" then
    some .broadcast
  else
    none

def fromStored (value : String) : DeliveryMode :=
  (parse value).getD .broadcast

theorem fromStored_asStr (mode : DeliveryMode) : fromStored mode.asStr = mode := by
  cases mode with
  | single => decide
  | broadcast => decide

end DeliveryMode

/-- Whether messages are stored until acknowledged. -/
inductive PersistenceMode where
  | persistent
  | ephemeral
  deriving DecidableEq, Repr

namespace PersistenceMode

def asStr : PersistenceMode → String
  | .persistent => "persistent"
  | .ephemeral => "ephemeral"

/-- `PersistenceMode::parse`: an empty value asks for the durable default. -/
def parse (value : String) : Option PersistenceMode :=
  let word := normalized value
  if word = "" ∨ word = "persistent" ∨ word = "durable" ∨ word = "store" then
    some .persistent
  else if word = "ephemeral" ∨ word = "transient" ∨ word = "none" ∨ word = "drop" then
    some .ephemeral
  else
    none

/-- `PersistenceMode::from_stored`: an empty column means ephemeral, unlike an
empty request. -/
def fromStored (value : String) : PersistenceMode :=
  if trim value.toList = [] then
    .ephemeral
  else
    (parse (String.ofList (trim value.toList))).getD .ephemeral

theorem fromStored_asStr (mode : PersistenceMode) : fromStored mode.asStr = mode := by
  cases mode with
  | persistent => decide
  | ephemeral => decide

end PersistenceMode

structure TopicConfig where
  topic : String
  delivery : DeliveryMode
  persistence : PersistenceMode
  deriving DecidableEq, Repr

namespace TopicConfig

/-- `TopicConfig::implicit`: what a topic without a stored row has. -/
def implicit (topic : String) : TopicConfig where
  topic := topic
  delivery := .broadcast
  persistence := .ephemeral

def fromColumns (topic delivery persistence : String) : TopicConfig where
  topic := topic
  delivery := DeliveryMode.fromStored delivery
  persistence := PersistenceMode.fromStored persistence

@[simp]
theorem fromColumns_asStr (config : TopicConfig) :
    fromColumns config.topic config.delivery.asStr config.persistence.asStr = config := by
  simp [fromColumns, DeliveryMode.fromStored_asStr, PersistenceMode.fromStored_asStr]

/-- The columns of a row no one configured spell out the implicit
configuration. -/
@[simp]
theorem fromColumns_implicit (topic : String) :
    fromColumns topic "broadcast" "ephemeral" = implicit topic :=
  fromColumns_asStr (implicit topic)

end TopicConfig

end CanglingBroker
