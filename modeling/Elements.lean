import Elements.Wire.Decoder
import Elements.Wire.Bits
import Elements.Wire.Digits
import Elements.Machine.CInt
import Elements.Control.Guard
import Elements.Algebra.Tally
import Elements.Algebra.Quorum
import Elements.Uint256
import Elements.Primitives.Confidential
import Elements.Primitives.Transaction
import Elements.Primitives.WireFormat
import Elements.Primitives.Block
import Elements.Primitives.BlockFormat
import Elements.Crypto.Hash
import Elements.Script.Script
import Elements.Script.Sighash
import Elements.Script.SighashPadding
import Elements.Dynafed
import Elements.Dynafed.Epochs
import Elements.Dynafed.Votes
import Elements.Issuance
import Elements.ConfidentialValidation
import Elements.ConfidentialValidation.Balance
import Elements.ConfidentialValidation.Storage
import Elements.Tree.Merkle
import Elements.Tree.Branch
import Elements.Crypto.FastMerkle
import Elements.Consensus.MerkleRoot
import Elements.MerkleBlock
import Elements.Primitives.Bitcoin
import Elements.Pegins
import Elements.Consensus.TxCheck
import Elements.Consensus.TxVerify
import Elements.Script.ScriptNum
import Elements.Script.Interpreter
import Elements.Script.Shift
import Elements.Algebra.Polymod
import Elements.Encoding.Blech32
import Elements.Serialize.VarInt
import Elements.Algebra.Pratt
import Elements.Crypto.Secp256k1
import Elements.Crypto.PubKey
import Elements.Compressor
import Elements.Script.ConditionStack
import Elements.Machine.Words
import Elements.ArithUint256
import Elements.Compact
import Elements.Wire.Decimal
import Elements.Util.MoneyStr
import Elements.Tree.Ancestry
import Elements.Chain
import Elements.Wallet.CoinSelection
import Elements.Asset
import Elements.Policy.Discount
import Elements.Control.Memo
import Elements.Versionbits
import Elements.Wallet.KnapsackCoverage
import Elements.Control.Batch
import Elements.Coins
import Elements.Coins.Coherence
import Elements.Coins.Flush
import Elements.Coins.Undo
import Elements.Coins.Disconnect
