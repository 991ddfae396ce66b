import GuardedCalls.Abi.Decoding
import GuardedCalls.Abi.Encoding
import GuardedCalls.Abi.Type
import GuardedCalls.Abi.Type.Reader
import GuardedCalls.Abi.Value
import GuardedCalls.Abi.Value.Text
import GuardedCalls.Binary64
import GuardedCalls.Binary64.Shortest
import GuardedCalls.Chain
import GuardedCalls.Chain.Gas
import GuardedCalls.Chain.Machine
import GuardedCalls.Chain.Rlp
import GuardedCalls.Constraint
import GuardedCalls.Contract.Interface
import GuardedCalls.Contract.Interface.Reader
import GuardedCalls.Contract.View
import GuardedCalls.Costs
import GuardedCalls.Costs.Reader
import GuardedCalls.Domain
import GuardedCalls.Domain.Draw
import GuardedCalls.Files
import GuardedCalls.Guard
import GuardedCalls.Guard.Table
import GuardedCalls.Hash.Keccak
import GuardedCalls.Json
import GuardedCalls.Json.Printer
import GuardedCalls.Json.Reader
import GuardedCalls.Json.Shape
import GuardedCalls.Message
import GuardedCalls.Power
import GuardedCalls.Proofs.AcceptanceTheorems
import GuardedCalls.Proofs.ArgumentTheorems
import GuardedCalls.Proofs.ArithmeticTheorems
import GuardedCalls.Proofs.AssemblyTheorems
import GuardedCalls.Proofs.ByteTheorems
import GuardedCalls.Proofs.ClimbTheorems
import GuardedCalls.Proofs.CodecTheorems
import GuardedCalls.Proofs.CollectionTheorems
import GuardedCalls.Proofs.CompilationTheorems
import GuardedCalls.Proofs.ContractViewTheorems
import GuardedCalls.Proofs.ContradictionTheorems
import GuardedCalls.Proofs.CostTheorems
import GuardedCalls.Proofs.DecimalLiteralTheorems
import GuardedCalls.Proofs.DrawTheorems
import GuardedCalls.Proofs.DrawnValueTheorems
import GuardedCalls.Proofs.FrameTheorems
import GuardedCalls.Proofs.GuardTableTheorems
import GuardedCalls.Proofs.GuardTheorems
import GuardedCalls.Proofs.InputNameTheorems
import GuardedCalls.Proofs.JsonNumberTheorems
import GuardedCalls.Proofs.LayoutTheorems
import GuardedCalls.Proofs.LiteralTheorems
import GuardedCalls.Proofs.LiveBoundTheorems
import GuardedCalls.Proofs.NarrowingTheorems
import GuardedCalls.Proofs.NumberTypeTheorems
import GuardedCalls.Proofs.NumberValueTheorems
import GuardedCalls.Proofs.ReadingTheorems
import GuardedCalls.Proofs.RejectionTheorems
import GuardedCalls.Proofs.RenderingTheorems
import GuardedCalls.Proofs.RequestTheorems
import GuardedCalls.Proofs.RoundTripTheorems
import GuardedCalls.Proofs.RuleBookTheorems
import GuardedCalls.Proofs.RuleBoundTheorems
import GuardedCalls.Proofs.RuleLookupTheorems
import GuardedCalls.Proofs.RuleReachTheorems
import GuardedCalls.Proofs.RuleReadingTheorems
import GuardedCalls.Proofs.RuleTheorems
import GuardedCalls.Proofs.ScalarTheorems
import GuardedCalls.Proofs.SessionTheorems
import GuardedCalls.Proofs.ShortestTheorems
import GuardedCalls.Proofs.SpaceTheorems
import GuardedCalls.Proofs.SpendingTheorems
import GuardedCalls.Proofs.TableTheorems
import GuardedCalls.Proofs.TypeGrammarTheorems
import GuardedCalls.Proofs.TypeNameTheorems
import GuardedCalls.Proofs.UniformityTheorems
import GuardedCalls.Proofs.UnsatisfiableTheorems
import GuardedCalls.Proofs.WalletTheorems
import GuardedCalls.Random.ChaCha
import GuardedCalls.Random.Draw
import GuardedCalls.Random.Length
import GuardedCalls.Random.Stream
import GuardedCalls.Rules
import GuardedCalls.Rules.Reader
import GuardedCalls.Scalar
import GuardedCalls.Scalar.Draw
import GuardedCalls.Scalar.Literal
import GuardedCalls.Session
import GuardedCalls.Session.Argument
import GuardedCalls.Session.Assembly
import GuardedCalls.Session.Call
import GuardedCalls.Settings
import GuardedCalls.Source.Location
import GuardedCalls.Source.Node
import GuardedCalls.Source.Node.Reader
import GuardedCalls.Space
import GuardedCalls.Space.Draw
import GuardedCalls.StateView
import GuardedCalls.Table
import GuardedCalls.Text.Blank
import GuardedCalls.Text.Hex
import GuardedCalls.Text.Hidden
import GuardedCalls.Text.Numeral
import GuardedCalls.Text.Quoted
import GuardedCalls.Text.Utf8
import GuardedCalls.Wallets
import GuardedCalls.Word
