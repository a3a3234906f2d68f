import MicroBench.Conformance.Suite
import MicroBench.Main
import MicroBench.Proofs.Listwise
import MicroBench.Proofs.Merge
import MicroBench.Proofs.Effect
import MicroBench.Proofs.Order
import MicroBench.Proofs.Sequential
import MicroBench.Proofs.StableSort
import MicroBench.Proofs.ForkJoin
import MicroBench.Proofs.Agreement
import MicroBench.Proofs.Safety
import MicroBench.Proofs.Session
import MicroBench.Proofs.Arguments
import MicroBench.Proofs.CallCount
import MicroBench.Proofs.Primes
import MicroBench.Proofs.Arena
import MicroBench.Proofs.Contract
import MicroBench.Proofs.Interleaving
import MicroBench.Proofs.Piecewise
import MicroBench.Proofs.Presorted
import MicroBench.Proofs.Positions
import MicroBench.Proofs.FirstPrimes
import MicroBench.Proofs.Lexicographic
import MicroBench.Proofs.Bench
import MicroBench.Proofs.Occurrences
import MicroBench.Proofs.Numeral
import MicroBench.Proofs.Draft
import MicroBench.Proofs.Acceptance
import MicroBench.Proofs.Options
import MicroBench.Proofs.SortCheck
import MicroBench.Proofs.Capacity
import MicroBench.Proofs.Chunks
import MicroBench.Proofs.Framing
