import DecentralBank.Maker.Dispatch
import DecentralBank.Maker.PositionSteps
import DecentralBank.Maker.CustodySteps
import DecentralBank.Maker.ReferendumSteps
import DecentralBank.Maker.LiquifySteps
import DecentralBank.Maker.Effects
import DecentralBank.Maker.Sound
import DecentralBank.Lib.Ratio
import DecentralBank.Maker.Ratios
import DecentralBank.Maker.Books
import DecentralBank.Maker.Totals
import DecentralBank.Maker.Accounts
import DecentralBank.Maker.Escrow
import DecentralBank.Maker.Votes
import DecentralBank.Maker.Authority
import DecentralBank.Maker.Genuine
import DecentralBank.Maker.Backing
import DecentralBank.Maker.Solvency
import DecentralBank.Maker.Auctions
import DecentralBank.Maker.Divisors
import DecentralBank.Maker.Bids
import DecentralBank.Maker.Fees
import DecentralBank.Maker.Circulation
import DecentralBank.Maker.Pending
import DecentralBank.Maker.Decisions
import DecentralBank.Maker.Currency
import DecentralBank.Maker.Governance
import DecentralBank.Lib.Arithmetic
import DecentralBank.Maker.Arithmetic
import DecentralBank.Lib.Sharing
import DecentralBank.Maker.Owners
import DecentralBank.Token.Conservation
import DecentralBank.Token.Refinement
import DecentralBank.System.Tables
import DecentralBank.System.Voting
import DecentralBank.Lib.Chains
import DecentralBank.System.VotingSteps
import DecentralBank.System.Bandwidth
import DecentralBank.System.Market
import DecentralBank.System.Names
import DecentralBank.System.Dispatch
import DecentralBank.System.BandwidthSteps
import DecentralBank.System.Proxies
import DecentralBank.System.Staking
import DecentralBank.System.Ram
import DecentralBank.Lib.Bytes
import DecentralBank.System.Auctions
import DecentralBank.System.Rewards
import DecentralBank.System.Persistence
import DecentralBank.Maker.Delivery
import DecentralBank.Maker.Rounds
import DecentralBank.Maker.Raises
import DecentralBank.Maker.Remainders
import DecentralBank.Maker.Settlement
import DecentralBank.Maker.Smoothing
import DecentralBank.Token.Articles
import DecentralBank.System.Closing
import DecentralBank.System.Elections
import DecentralBank.System.Blockchain
import DecentralBank.System.Footprints
import DecentralBank.System.Schedule
import DecentralBank.System.Interleavings
import DecentralBank.System.Reserves
import DecentralBank.System.Limits
import DecentralBank.System.Ballots
import DecentralBank.System.Denominations
import DecentralBank.System.Withdrawals
import DecentralBank.System.Refunds
import DecentralBank.System.Pricing
import DecentralBank.Lib.Tally
import DecentralBank.System.Weights
import DecentralBank.System.Votes
import DecentralBank.System.Tallies
import DecentralBank.Lib.Accrual
import DecentralBank.System.VotePay
import DecentralBank.System.Earnings
