import Mathlib.Data.Nat.Notation

/-!
# Constants
-/

namespace JsonRpcRelay.constants

def EMPTY_HEX : String := "0x"

def ZERO_HEX : String := "0x0"

def ONE_HEX : String := "0x1"

def ZERO_HEX_8_BYTE : String := "0x0000000000000000"

def ZERO_HEX_32_BYTE : String :=
  "0x0000000000000000000000000000000000000000000000000000000000000000"

def ZERO_ADDRESS_HEX : String := "0x" ++ String.ofList (List.replicate 40 '0')

def EMPTY_BLOOM : String := "0x" ++ String.ofList (List.replicate 512 '0')

/-- The hash of an empty trie. -/
def DEFAULT_ROOT_HASH : String :=
  "0x56e81f171bcc55a6ff8345e692c0f86e5b48e01b996cadc001622fb5e363b421"

def EMPTY_ARRAY_HEX : String :=
  "0x1dcc4de8dec75d7aab85b567b6ccd41ad312451b948a7413f0a142fd40d49347"

def INVALID_EVM_INSTRUCTION : String := "0xfe"

def ISTANBUL_TX_DATA_NON_ZERO_COST : ℕ := 16

def TX_BASE_COST : ℕ := 21000

def TX_DATA_ZERO_COST : ℕ := 4

def DETERMINISTIC_DEPLOYER_TRANSACTION : String :=
  "0xf8a58085174876e800830186a08080b853604580600e600039806000f350fe7fffffffffffffffffffffffffff" ++
  "ffffffffffffffffffffffffffffffffffffe03601600081602082378035828234f58015156039578182fd5b80825" ++
  "25050506014600cf31ba02222222222222222222222222222222222222222222222222222222222222222a0222222" ++
  "2222222222222222222222222222222222222222222222222222222222"

def TX_DEFAULT_GAS_DEFAULT : ℕ := 400000

def BLOCK_GAS_LIMIT : ℕ := 30000000

def TINYBAR_TO_WEIBAR_COEF : ℕ := 10000000000

def TOTAL_SUPPLY_TINYBARS : ℕ := 5000000000000000000

def NON_CACHABLE_BLOCK_PARAMS : String := "latest|pending|finalized|safe"

def MAX_GAS_PER_SEC : ℕ := 15000000

def HTS_ADDRESS : String := "0x0000000000000000000000000000000000000167"

def MAX_MIRROR_NODE_PAGINATION : ℕ := 20

def MIRROR_NODE_QUERY_LIMIT : ℕ := 100

/-- 15 minutes. -/
def BALANCES_UPDATE_INTERVAL : ℕ := 900

def FEE_HISTORY_REWARD_PERCENTILES_MAX_SIZE : ℕ := 100

def BLOCK_HASH_LENGTH : ℕ := 66

def FUNCTION_SELECTOR_CHAR_LENGTH : ℕ := 10

/-- Creation of fungible tokens without and with custom fees, then of non-fungible ones. -/
def HTS_CREATE_FUNCTIONS_SELECTORS : List String :=
  ["0x27d97be3", "0xc23baeb6", "0x0fb65bf3", "0xef2d1098", "0xb937581a", "0x2af0c59a",
    "0x9dc711e0", "0x9c89bb35", "0xea83f293", "0x5bc7c0e6", "0x45733969", "0xabb54eb5"]

end JsonRpcRelay.constants
