import OffchainNames.Authority
import OffchainNames.Integrity
import OffchainNames.Table

/-!
# The resolver

Ten functions on names: four read what is stored for a node and are open to everyone, six write and
need an authorization. Reading a node that has no record gives zero values. A write is checked before
it is made: some texts may be reserved, a node is not given to nobody, and its signer has to own the
node, except for the one that registers it.
-/

namespace OffchainNames

/-- The functions of the resolver. -/
inductive Operation where
  | text
  | setText
  /-- Reads the address on the chain of the coin type `etherCoin`. -/
  | addr
  | addrCoin
  /-- Sets the address on the chain of the coin type `etherCoin`. -/
  | setAddr
  | setAddrCoin
  | contenthash
  | setContenthash
  | register
  | transfer
  deriving DecidableEq, Repr

/-- The coin type of Ether. -/
def etherCoin : Word := 60

namespace Operation

/-- All functions, in the order in which they are installed. -/
def all : List Operation :=
  [text, setText, addr, addrCoin, setAddr, setAddrCoin, contenthash, setContenthash, register,
   transfer]

/-- A parameter of a plain type. -/
def param (name type : String) : Abi.Param := ⟨name, type, []⟩

/-- The parameter that names the node. -/
def node : Abi.Param := param "node" "bytes32"

/-- The signature of a function. -/
def signature : Operation → Abi.Signature
  | text => ⟨"text", [node, param "key" "string"], [param "" "string"], .view⟩
  | setText =>
    ⟨"setText", [node, param "key" "string", param "value" "string"], [], .nonpayable⟩
  | addr => ⟨"addr", [node], [param "" "address"], .view⟩
  | addrCoin => ⟨"addr", [node, param "coinType" "uint256"], [param "" "bytes"], .view⟩
  | setAddr => ⟨"setAddr", [node, param "a" "address"], [], .nonpayable⟩
  | setAddrCoin =>
    ⟨"setAddr", [node, param "coinType" "uint256", param "a" "bytes"], [], .nonpayable⟩
  | contenthash => ⟨"contenthash", [node], [param "" "bytes"], .view⟩
  | setContenthash => ⟨"setContenthash", [node, param "hash" "bytes"], [], .nonpayable⟩
  | register => ⟨"register", [node, param "ttl" "uint32"], [], .nonpayable⟩
  | transfer => ⟨"transfer", [node, param "owner" "address"], [], .nonpayable⟩

end Operation

/-- What a function that reads asks for. -/
inductive Query where
  | text (key : String)
  /-- The address on the chain of the coin type `etherCoin`. -/
  | account
  | address (coin : Word)
  | contenthash
  deriving DecidableEq, Repr

/-- The value that a record gives to a query; without a record, and where nothing is stored, it is the
zero value. -/
def Query.value (record : Option Record) : Query → Abi.Value
  | text key => .string ((record.bind fun r => r.texts[key]?).getD "")
  | account =>
    match record.bind fun r => r.addresses[etherCoin]? with
    | some raw => .address (if raw.length = 20 then Bytes.toBits 160 raw else 0)
    | none => .address 0
  | address coin => .bytes ((record.bind fun r => r.addresses[coin]?).getD [])
  | contenthash => .bytes ((record.bind Record.contenthash).getD [])

/-- The reply to a query: the value, which may be kept as long as the record says. -/
def Query.reply (query : Query) (record : Option Record) : Reply :=
  { values := [query.value record]
    ttl := (record.map Record.ttl).filter fun ttl => ttl != 0 }

/-- What a function that writes asks for. -/
inductive Command where
  | setText (key value : String)
  | setAddress (coin : Word) (value : Bytes)
  | setContenthash (value : Bytes)
  | register (ttl : UInt64)
  | transfer (owner : Address)
  deriving DecidableEq, Repr

/-- The change that a command makes for a signer. -/
def Command.change (node : Word) (signer : Address) : Command → Change
  | setText key value => .setText node key value
  | setAddress coin value => .setAddress node coin value
  | setContenthash value => .setContenthash node value
  | register ttl => .register node signer ttl
  | transfer owner => .transfer node owner

/-- What a function asks for, of the node that is its first argument. -/
inductive Request where
  | query (query : Query)
  | command (command : Command)
  deriving DecidableEq, Repr

/-- The bytes under which an account is stored as an address; none for the zero account. -/
def accountBytes (account : Address) : Bytes := if account = 0 then [] else Bytes.ofBits account

namespace Operation

/-- The request that the arguments after the node hold. -/
def request (op : Operation) (args : Arguments) : Except Error Request :=
  match op with
  | text => do pure (.query (.text (← args.string 1)))
  | setText => do
    let key ← args.string 1
    pure (.command (.setText key (← args.string 2)))
  | addr => pure (.query .account)
  | addrCoin => do pure (.query (.address (← args.uint 1)))
  | setAddr => do pure (.command (.setAddress etherCoin (accountBytes (← args.address 1))))
  | setAddrCoin => do
    let coin ← args.uint 1
    pure (.command (.setAddress coin (← args.bytes 2)))
  | contenthash => pure (.query .contenthash)
  | setContenthash => do pure (.command (.setContenthash (← args.bytes 1)))
  | register => do pure (.command (.register (← args.uint64 1)))
  | transfer => do pure (.command (.transfer (← args.address 1)))

/-- The node and the request that arguments hold. -/
def read (op : Operation) (args : Arguments) : Except Error (Word × Request) := do
  let node ← args.word 0
  let request ← op.request args
  pure (node, request)

end Operation

/-- A resolver. -/
structure Resolver where
  authority : Authority
  /-- The keys of texts that nobody may set. -/
  reserved : List String := []

namespace Resolver

/-- Why a command is refused whoever signs it. -/
def objection? (r : Resolver) : Command → Option Error
  | .setText key _ =>
    if r.reserved.contains key then some (.refusal ("reserved key: " ++ key)) else none
  | .transfer owner =>
    if owner = 0 then some (.refusal "cannot transfer to the zero address") else none
  | _ => none

/-- Finds the account that may give a command about a node: any signer may register it, only its owner
may do anything else. -/
def permit (r : Resolver) (ctx : Context) (node : Word) :
    Command → Course (Except Error Address)
  | .register _ => r.authority.signer ctx
  | _ => r.authority.authorize ctx node

/-- Answers a query. -/
def answer (node : Word) (query : Query) : Course Outcome :=
  .domain node fun
    | .ok record => .done (.reply (query.reply record))
    | .error e => .done (.failure (.store e))

/-- Carries a command out. -/
def execute (r : Resolver) (ctx : Context) (node : Word) (command : Command) : Course Outcome :=
  match r.objection? command with
  | some e => .done (.failure e)
  | none =>
    (r.permit ctx node command).bind fun
      | .error e => .done (.failure e)
      | .ok signer =>
        .change (command.change node signer) fun
          | .ok () => .done (.reply {})
          | .error e => .done (.failure (.store e))

/-- The function behind an operation. -/
def handler (r : Resolver) (op : Operation) : Handler := fun ctx args =>
  match op.read args with
  | .error e => .done (.failure e)
  | .ok (node, .query query) => answer node query
  | .ok (node, .command command) => r.execute ctx node command

/-- The table with the functions of the resolver. -/
def install (r : Resolver) (t : Table) : Table :=
  Operation.all.foldl (fun t op => t.add op.signature (r.handler op)) t

/-- The table of the batch of calls and the functions of the resolver. -/
def table (r : Resolver) : Table := r.install Table.standard

end Resolver

namespace Integrity

/-- The marking of records that functions of the resolver write. -/
def resolver : Integrity :=
  { tracked :=
      [Operation.setText, .setAddr, .setAddrCoin, .setContenthash, .register, .transfer].map
        fun op => op.signature.selector
    embedded := [Operation.register, .transfer].map fun op => op.signature.selector }

end Integrity

end OffchainNames
